import Supervisord.Expression
import Supervisord.Ini

/-!
# Configuration entries

A `ConfigEntry` is one resolved section of the configuration: its name, the
directory of the configuration file, the group it belongs to, and its raw
key/value pairs. Its kind is read off the name: `program:`, `eventlistener:`,
`group:`, or none for a daemon section such as `supervisord`.

The kind tests and name projections of the source are one family, `isKind` and
`kindName`, applied to each section prefix. The typed accessors read a key and
fall back to a default: `getString` evaluates `%(here)s`, `getInt` and
`getBytes` parse a decimal integer through `toInt`, whose multiplication is
Go's 64-bit `int` multiplication and wraps around. Go strings are byte
strings; `getBytes` inspects its last two bytes, and since the suffixes it
looks for are ASCII, testing the last two characters gives the same answer.

`GetBool`, `HasParameter`, `GetStringExpression` and `setGroup` have no caller
among the modelled functions and are left out.
-/

namespace Supervisord

/-- `ConfigEntry`. -/
structure ConfigEntry where
  configDir : String
  group : String
  name : String
  keyValues : GoMap String

/-- `NewConfigEntry`. -/
def newConfigEntry (configDir : String) : ConfigEntry := ⟨configDir, "", "", GoMap.empty⟩

/-- The value of Go's 64-bit `int` holding the mathematical integer `value`. -/
def wrapInt64 (value : Int) : Int := (value + 2 ^ 63) % 2 ^ 64 - 2 ^ 63

theorem wrapInt64_bounds (value : Int) : -2 ^ 63 ≤ wrapInt64 value ∧ wrapInt64 value < 2 ^ 63 := by
  unfold wrapInt64
  have nonneg := Int.emod_nonneg (value + 2 ^ 63) (by decide : (2 : Int) ^ 64 ≠ 0)
  have below := Int.emod_lt_of_pos (value + 2 ^ 63) (by decide : (0 : Int) < 2 ^ 64)
  omega

theorem dvd_wrapInt64_sub (value : Int) : (2 : Int) ^ 64 ∣ wrapInt64 value - value := by
  unfold wrapInt64
  have division := Int.emod_add_ediv (value + 2 ^ 63) (2 ^ 64)
  exact ⟨-((value + 2 ^ 63) / 2 ^ 64), by omega⟩

theorem wrapInt64_of_bounds {value : Int} (low : -2 ^ 63 ≤ value) (high : value < 2 ^ 63) :
    wrapInt64 value = value := by
  unfold wrapInt64
  rw [Int.emod_eq_of_lt (by omega) (by omega)]
  omega

/-- `toInt`: the parsed integer times `factor`, or `defValue` when `s` is no integer. -/
def toInt (s : String) (factor defValue : Int) : Int :=
  match GoStd.atoi s with
  | some i => wrapInt64 (i * factor)
  | none => defValue

namespace ConfigEntry

/-- The entry's name starts with the section prefix `kind`. -/
def isKind (entry : ConfigEntry) (kind : String) : Bool := GoStd.hasPrefix entry.name kind

/-- The name after the section prefix `kind`, or `""` for an entry of another kind. -/
def kindName (entry : ConfigEntry) (kind : String) : String :=
  if entry.isKind kind then GoStd.dropChars entry.name kind.length else ""

/-- `IsProgram`. -/
def isProgram (entry : ConfigEntry) : Bool := entry.isKind "program:"

/-- `GetProgramName`. -/
def getProgramName (entry : ConfigEntry) : String := entry.kindName "program:"

/-- `IsEventListener`. -/
def isEventListener (entry : ConfigEntry) : Bool := entry.isKind "eventlistener:"

/-- `GetEventListenerName`. -/
def getEventListenerName (entry : ConfigEntry) : String := entry.kindName "eventlistener:"

/-- `IsGroup`. -/
def isGroup (entry : ConfigEntry) : Bool := entry.isKind "group:"

/-- `GetGroupName`. -/
def getGroupName (entry : ConfigEntry) : String := entry.kindName "group:"

/-- No name starts with both `program:` and `eventlistener:`. -/
theorem isEventListener_eq_false_of_isProgram {entry : ConfigEntry}
    (program : entry.isProgram = true) : entry.isEventListener = false := by
  rw [Bool.eq_false_iff]
  intro listener
  simp only [isProgram, isEventListener, isKind, GoStd.hasPrefix, List.isPrefixOf_iff_prefix]
    at program listener
  have clash := List.prefix_of_prefix_length_le program listener (by decide)
  exact absurd (List.isPrefixOf_iff_prefix.mpr clash) (by decide)

/-- `GetString`: the value with `%(here)s` evaluated, or `defValue`. -/
def getString (entry : ConfigEntry) (key defValue : String) : String :=
  match entry.keyValues.lookup key with
  | some s =>
      match (StringExpression.mk [("here", entry.configDir)]).eval s with
      | .ok rep => rep
      | .error _ => defValue
  | none => defValue

/-- `GetInt`. -/
def getInt (entry : ConfigEntry) (key : String) (defValue : Int) : Int :=
  match entry.keyValues.lookup key with
  | some value => toInt value 1 defValue
  | none => defValue

/-- `GetStringArray`: the value split at `sep`. -/
def getStringArray (entry : ConfigEntry) (key : String) (sep : Char) : List String :=
  match entry.keyValues.lookup key with
  | some s => GoStd.split s sep
  | none => []

/-- `GetPrograms`: the comma-separated `programs` of a `group:` entry. -/
def getPrograms (entry : ConfigEntry) : List String :=
  if entry.isGroup then entry.getStringArray "programs" ',' else []

/-- `GetBytes`: a size with an optional `KB`, `MB` or `GB` suffix, or `defValue`. -/
def getBytes (entry : ConfigEntry) (key : String) (defValue : Int) : Int :=
  match entry.keyValues.lookup key with
  | some v =>
      let n := v.length
      let lastTwoBytes := GoStd.dropChars v (n - 2)
      let number : String := ⟨v.toList.take (n - 2)⟩
      if 2 < n ∧ lastTwoBytes = "MB" then toInt number (1024 * 1024) defValue
      else if 2 < n ∧ lastTwoBytes = "GB" then toInt number (1024 * 1024 * 1024) defValue
      else if 2 < n ∧ lastTwoBytes = "KB" then toInt number 1024 defValue
      else toInt v 1 defValue
  | none => defValue

/-- `logfile_maxbytes = 8589934592GB` asks for 2^63 bytes, one more than Go's `int`
holds: the product wraps around to -2^63. -/
theorem getBytes_wraps_around :
    ({ newConfigEntry "/etc" with
        keyValues := GoMap.ofList [("logfile_maxbytes", "8589934592GB")] }).getBytes
        "logfile_maxbytes" 52428800 = -9223372036854775808 := by
  decide

/-- The last two characters of a value that ends in a digit are no unit suffix. -/
theorem dropChars_ne_suffix {v : String} {pre : List Char} {d : Char} (split : v.toList = pre ++ [d])
    (digit : d.isDigit = true) {suffix : String} (unit : suffix ∈ ["MB", "GB", "KB"]) :
    GoStd.dropChars v (v.length - 2) ≠ suffix := by
  intro same
  have last : (GoStd.dropChars v (v.length - 2)).toList.getLast? = some d := by
    have short : v.length - 2 ≤ pre.length := by
      have := congrArg List.length split
      simp only [List.length_append, List.length_singleton] at this
      simp only [String.length, String.toList] at this ⊢
      omega
    rw [GoStd.dropChars, String.toList, split, List.drop_append_of_le_length short]
    simp
  rw [same] at last
  simp only [List.mem_cons, List.mem_singleton, List.not_mem_nil, or_false] at unit
  rcases unit with rfl | rfl | rfl <;> simp at last <;> subst last <;> simp at digit

/-- A value that is a nonempty number followed by a two-character unit splits, two characters
before its end, into the number and the unit. -/
theorem dropChars_append_unit {pre : List Char} {d : Char} {unit : String} (two : unit.length = 2) :
    let v := String.mk (pre ++ [d]) ++ unit
    2 < v.length ∧ GoStd.dropChars v (v.length - 2) = unit ∧
      (⟨v.toList.take (v.length - 2)⟩ : String) = ⟨pre ++ [d]⟩ := by
  obtain ⟨chars⟩ := unit
  change chars.length = 2 at two
  have front : (pre ++ [d] ++ chars).length - 2 = (pre ++ [d]).length := by simp [two]
  change 2 < (pre ++ [d] ++ chars).length ∧
    String.mk ((pre ++ [d] ++ chars).drop ((pre ++ [d] ++ chars).length - 2)) = ⟨chars⟩ ∧
    String.mk ((pre ++ [d] ++ chars).take ((pre ++ [d] ++ chars).length - 2)) = ⟨pre ++ [d]⟩
  rw [front, List.drop_left, List.take_left]
  simp [two]

/-- `GetBytes` of a decimal integer followed by no suffix, `KB`, `MB` or `GB` is `toInt` of
the integer times the unit. -/
theorem getBytes_eq_wrapInt64 {entry : ConfigEntry} {key : String} (defValue : Int)
    {digits suffix : String} {n factor : Int}
    (stored : entry.keyValues.lookup key = some (digits ++ suffix))
    (parsed : GoStd.atoi digits = some n)
    (unit : (suffix, factor) ∈
      [("", 1), ("KB", 1024), ("MB", 1024 * 1024), ("GB", 1024 * 1024 * 1024)]) :
    entry.getBytes key defValue = wrapInt64 (n * factor) := by
  obtain ⟨pre, d, split, digit⟩ := GoStd.atoi_ends_in_digit parsed
  obtain ⟨_⟩ := digits
  obtain rfl : _ = pre ++ [d] := split
  simp only [List.mem_cons, Prod.mk.injEq, List.mem_singleton, List.not_mem_nil, or_false] at unit
  unfold getBytes
  rw [stored]
  dsimp only
  rcases unit with ⟨rfl, rfl⟩ | ⟨rfl, rfl⟩ | ⟨rfl, rfl⟩ | ⟨rfl, rfl⟩
  · rw [String.append_empty, if_neg fun mb => dropChars_ne_suffix rfl digit (by simp) mb.2,
      if_neg fun gb => dropChars_ne_suffix rfl digit (by simp) gb.2,
      if_neg fun kb => dropChars_ne_suffix rfl digit (by simp) kb.2, toInt, parsed]
  · obtain ⟨long, last, number⟩ := @dropChars_append_unit pre d "KB" rfl
    rw [if_neg fun mb => absurd (last.symm.trans mb.2) (by decide),
      if_neg fun gb => absurd (last.symm.trans gb.2) (by decide), if_pos ⟨long, last⟩, number,
      toInt, parsed]
  · obtain ⟨long, last, number⟩ := @dropChars_append_unit pre d "MB" rfl
    rw [if_pos ⟨long, last⟩, number, toInt, parsed]
  · obtain ⟨long, last, number⟩ := @dropChars_append_unit pre d "GB" rfl
    rw [if_neg fun mb => absurd (last.symm.trans mb.2) (by decide), if_pos ⟨long, last⟩, number,
      toInt, parsed]

/-- `GetBytes` of a decimal integer `n` followed by no suffix, `KB`, `MB` or `GB` is the
value of Go's `int` that holds `n` times the unit: it lies in the range of `int`, differs
from the product by a multiple of 2^64, and is the product itself whenever that fits. -/
theorem getBytes_size {entry : ConfigEntry} {key : String} (defValue : Int)
    {digits suffix : String} {n factor : Int}
    (stored : entry.keyValues.lookup key = some (digits ++ suffix))
    (parsed : GoStd.atoi digits = some n)
    (unit : (suffix, factor) ∈
      [("", 1), ("KB", 1024), ("MB", 1024 * 1024), ("GB", 1024 * 1024 * 1024)]) :
    -2 ^ 63 ≤ entry.getBytes key defValue ∧ entry.getBytes key defValue < 2 ^ 63 ∧
      2 ^ 64 ∣ entry.getBytes key defValue - n * factor ∧
      (-2 ^ 63 ≤ n * factor → n * factor < 2 ^ 63 → entry.getBytes key defValue = n * factor) := by
  rw [getBytes_eq_wrapInt64 defValue stored parsed unit]
  exact ⟨(wrapInt64_bounds _).1, (wrapInt64_bounds _).2, dvd_wrapInt64_sub _,
    wrapInt64_of_bounds⟩

/-- `logfile_maxbytes = 50MB`. -/
theorem getBytes_size_fifty_megabytes :
    let entry := { newConfigEntry "/etc" with
      keyValues := GoMap.ofList [("logfile_maxbytes", "50MB")] }
    entry.keyValues.lookup "logfile_maxbytes" = some ("50" ++ "MB") ∧ GoStd.atoi "50" = some 50 ∧
      ("MB", (1024 * 1024 : Int)) ∈
        [("", 1), ("KB", 1024), ("MB", 1024 * 1024), ("GB", 1024 * 1024 * 1024)] ∧
      (-2 ^ 63 ≤ entry.getBytes "logfile_maxbytes" 0 ∧ entry.getBytes "logfile_maxbytes" 0 < 2 ^ 63 ∧
        2 ^ 64 ∣ entry.getBytes "logfile_maxbytes" 0 - 50 * (1024 * 1024) ∧
        (-2 ^ 63 ≤ 50 * (1024 * 1024) → (50 * (1024 * 1024) : Int) < 2 ^ 63 →
          entry.getBytes "logfile_maxbytes" 0 = 50 * (1024 * 1024))) := by
  intro entry
  have stored : entry.keyValues.lookup "logfile_maxbytes" = some ("50" ++ "MB") := by decide
  have parsed : GoStd.atoi "50" = some 50 := by decide
  have unit : ("MB", (1024 * 1024 : Int)) ∈
      [("", 1), ("KB", 1024), ("MB", 1024 * 1024), ("GB", 1024 * 1024 * 1024)] := by decide
  exact ⟨stored, parsed, unit, getBytes_size 0 stored parsed unit⟩

/-- `ConfigEntry.parse`: take the section's name and write each of its keys. -/
def parse (entry : ConfigEntry) (sec : Section) : ConfigEntry :=
  { entry with
    name := sec.name
    keyValues := sec.keys.entries.foldl (fun kv key => kv.set key.1 key.2) entry.keyValues }

@[simp] theorem name_parse (entry : ConfigEntry) (sec : Section) :
    (entry.parse sec).name = sec.name := rfl

@[simp] theorem group_parse (entry : ConfigEntry) (sec : Section) :
    (entry.parse sec).group = entry.group := rfl

@[simp] theorem configDir_parse (entry : ConfigEntry) (sec : Section) :
    (entry.parse sec).configDir = entry.configDir := rfl

theorem lookup_parse (entry : ConfigEntry) (sec : Section) (key : String) :
    (entry.parse sec).keyValues.lookup key = (sec.keys.lookup key).or (entry.keyValues.lookup key) :=
  GoMap.lookup_foldl_set _ sec.keys.nodupKeys _ _

end ConfigEntry

end Supervisord

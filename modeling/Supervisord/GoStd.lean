import Mathlib.Algebra.Group.Int
import Mathlib.Data.List.Basic

/-!
# The parts of Go's standard library the daemon calls

The configuration code calls `strings`, `strconv` and `path/filepath`. Each is
modelled here on the character list of a string, by structural recursion, so
that every definition evaluates in the kernel. Go strings are byte sequences;
all separators these functions look for are ASCII, and a UTF-8 continuation
byte is never ASCII, so splitting on characters and splitting on bytes cut a
string at the same places.

Paths are '/'-separated, as on the Unix build of the daemon. `clean` follows
the lexical rules of `filepath.Clean`, on which `dir` and `join` rest.
-/

namespace Supervisord

namespace GoStd

/-- `strings.HasPrefix`. -/
def hasPrefix (s pre : String) : Bool := pre.toList.isPrefixOf s.toList

/-- A string has at most one of two prefixes neither of which starts the other. -/
theorem hasPrefix_eq_false_of_hasPrefix {s pre other : String} (has : hasPrefix s pre = true)
    (apart : hasPrefix pre other = false ∧ hasPrefix other pre = false) : hasPrefix s other = false := by
  rw [Bool.eq_false_iff]
  intro both
  simp only [hasPrefix, List.isPrefixOf_iff_prefix] at has both
  rcases List.prefix_or_prefix_of_prefix both has with starts | starts
  · exact Bool.noConfusion ((List.isPrefixOf_iff_prefix.mpr starts).symm.trans apart.1)
  · exact Bool.noConfusion ((List.isPrefixOf_iff_prefix.mpr starts).symm.trans apart.2)

/-- `s[n:]`: the string after its first `n` characters. -/
def dropChars (s : String) (n : Nat) : String := ⟨s.toList.drop n⟩

/-- `strings.Split` with a one-character separator. -/
def split (s : String) (sep : Char) : List String := (s.toList.splitOn sep).map String.mk

/-- `strings.Join`. -/
def join (parts : List String) (sep : String) : String := sep.intercalate parts

/-- `unicode.IsSpace`. -/
def isSpace (c : Char) : Bool :=
  c = ' ' || c = '\t' || c = '\n' || c = '\r' || c.toNat = 0x0b || c.toNat = 0x0c ||
    c.toNat = 0x85 || c.toNat = 0xa0 || c.toNat = 0x1680 ||
    (0x2000 ≤ c.toNat && c.toNat ≤ 0x200a) || c.toNat = 0x2028 || c.toNat = 0x2029 ||
    c.toNat = 0x202f || c.toNat = 0x205f || c.toNat = 0x3000

/-- `strings.Fields`: the maximal runs of non-space characters. -/
def fields (s : String) : List String :=
  ((s.toList.splitOnP isSpace).filter (fun part => !part.isEmpty)).map String.mk

/-- `strings.Index(s, sub) != -1`. -/
def contains (s sub : String) : Bool := s.toList.tails.any (sub.toList.isPrefixOf ·)

/-- `strings.Replace(s, old, new, -1)` with a one-character `old`. -/
def replaceAll (s : String) (old : Char) (new : String) : String :=
  ⟨s.toList.flatMap fun c => if c = old then new.toList else [c]⟩

/-! ### The characters of `Split`, `Replace` and `Join` -/

theorem toList_replaceAll (s : String) (old : Char) (new : String) :
    (replaceAll s old new).toList = s.toList.flatMap fun c => if c = old then new.toList else [c] :=
  rfl

theorem toList_intercalate_go (acc sep : String) (parts : List String) :
    (String.intercalate.go acc sep parts).toList =
      acc.toList ++ parts.flatMap fun part => sep.toList ++ part.toList := by
  induction parts generalizing acc with
  | nil => simp [String.intercalate.go]
  | cons part rest ih =>
      rw [String.intercalate.go, ih]
      simp [String.toList]

/-- `strings.Join`: the first part, then the separator before each other part. -/
theorem toList_join (part : String) (rest : List String) (sep : String) :
    (join (part :: rest) sep).toList =
      part.toList ++ rest.flatMap fun next => sep.toList ++ next.toList :=
  toList_intercalate_go part sep rest

/-- Splitting at `sep`, rewriting the parts character by character with `g`, and joining
them with `glue` rewrites each `sep` to `glue` and every other character by `g`. -/
theorem flatMap_splitOn (sep : Char) (glue : List Char) (g : Char → List Char) :
    ∀ (l first : List Char) (others : List (List Char)), l.splitOn sep = first :: others →
      first.flatMap g ++ others.flatMap (fun part => glue ++ part.flatMap g) =
        l.flatMap fun c => if c = sep then glue else g c
  | [], first, others, parts => by
      simp only [List.splitOn_nil, List.cons.injEq] at parts
      obtain ⟨rfl, rfl⟩ := parts
      rfl
  | c :: rest, first, others, parts => by
      obtain ⟨first', others', split⟩ : ∃ f o, rest.splitOn sep = f :: o :=
        List.exists_cons_of_ne_nil (List.splitOnP_ne_nil _ rest)
      have ih := flatMap_splitOn sep glue g rest first' others' split
      rw [List.splitOn, List.splitOnP_cons, ← List.splitOn, split] at parts
      by_cases hit : c = sep
      · simp only [hit, beq_self_eq_true, if_true, List.cons.injEq] at parts
        obtain ⟨rfl, rfl⟩ := parts
        simp [hit, ← ih]
      · simp only [beq_iff_eq, hit, if_false, List.modifyHead_cons, List.cons.injEq] at parts
        obtain ⟨rfl, rfl⟩ := parts
        simp [hit, ← ih]

theorem join_map_split (s : String) (sep : Char) (glue : String) (f : String → String)
    (g : Char → List Char) (rewrites : ∀ t, (f t).toList = t.toList.flatMap g) :
    (join ((split s sep).map f) glue).toList =
      s.toList.flatMap fun c => if c = sep then glue.toList else g c := by
  obtain ⟨first, others, parts⟩ : ∃ f o, s.toList.splitOn sep = f :: o :=
    List.exists_cons_of_ne_nil (List.splitOnP_ne_nil _ s.toList)
  rw [split, parts, List.map_cons, List.map_cons, toList_join,
    ← flatMap_splitOn sep glue.toList g s.toList first others parts]
  simp only [List.map_map, List.flatMap_map, Function.comp_def, rewrites]
  rfl

/-- The value of a string of decimal digits. -/
def digitsValue (digits : List Char) : Nat :=
  digits.foldl (fun acc d => 10 * acc + (d.toNat - '0'.toNat)) 0

/-- `strconv.Atoi`: an optional sign and at least one decimal digit, within the
range of Go's 64-bit `int`; anything else is an error. -/
def atoi (s : String) : Option Int :=
  let (negative, digits) :=
    match s.toList with
    | '-' :: rest => (true, rest)
    | '+' :: rest => (false, rest)
    | cs => (false, cs)
  if digits.isEmpty || !digits.all Char.isDigit then none
  else
    let magnitude := digitsValue digits
    let value : Int := if negative then -magnitude else magnitude
    if -2 ^ 63 ≤ value ∧ value < 2 ^ 63 then some value else none

/-- A string `Atoi` accepts ends in a decimal digit. -/
theorem atoi_ends_in_digit {s : String} {i : Int} (parsed : atoi s = some i) :
    ∃ pre d, s.toList = pre ++ [d] ∧ d.isDigit = true := by
  have signed : ∃ sign digits, s.toList = sign ++ digits ∧ digits ≠ [] ∧
      digits.all Char.isDigit = true := by
    unfold atoi at parsed
    split at parsed
    next negative digits sign =>
      split at parsed
      · cases parsed
      · next accepted =>
          simp only [Bool.or_eq_true, List.isEmpty_iff, Bool.not_eq_true', not_or,
            Bool.not_eq_false] at accepted
          split at sign
          · next rest chars =>
              obtain ⟨-, rfl⟩ := Prod.mk.inj sign
              exact ⟨['-'], _, chars, accepted⟩
          · next rest chars =>
              obtain ⟨-, rfl⟩ := Prod.mk.inj sign
              exact ⟨['+'], _, chars, accepted⟩
          · obtain ⟨-, rfl⟩ := Prod.mk.inj sign
            exact ⟨[], _, rfl, accepted⟩
  obtain ⟨sign, digits, split, nonempty, allDigits⟩ := signed
  obtain ⟨init, d, rfl⟩ := (List.eq_nil_or_concat digits).resolve_left nonempty
  rw [List.concat_eq_append] at split allDigits
  exact ⟨sign ++ init, d, by rw [split, List.append_assoc],
    List.all_eq_true.mp allDigits d (by simp)⟩

/-- `filepath.IsAbs`. -/
def isAbs (path : String) : Bool := hasPrefix path "/"

/-- The path elements of `filepath.Clean`, kept on a stack with the last element
on top: `.` and empty elements vanish, and `..` removes the element below it. -/
def cleanStack (rooted : Bool) : List String → List String → List String
  | stack, [] => stack
  | stack, elem :: rest =>
      if elem = "" ∨ elem = "." then cleanStack rooted stack rest
      else if elem = ".." then
        match stack with
        | top :: below =>
            if top = ".." then cleanStack rooted (elem :: stack) rest
            else cleanStack rooted below rest
        | [] => cleanStack rooted (if rooted then [] else [elem]) rest
      else cleanStack rooted (elem :: stack) rest

/-- `filepath.Clean`. -/
def clean (path : String) : String :=
  let rooted := isAbs path
  let body := join (cleanStack rooted [] (split path '/')).reverse "/"
  if rooted then "/" ++ body else if body = "" then "." else body

/-- `filepath.Dir`: everything up to the last separator, cleaned. -/
def dir (path : String) : String :=
  clean ⟨(path.toList.reverse.dropWhile (· ≠ '/')).reverse⟩

/-- `filepath.Base`: the last element, trailing separators removed. -/
def base (path : String) : String :=
  if path = "" then "."
  else
    match path.toList.reverse.dropWhile (· = '/') with
    | [] => "/"
    | trimmed => ⟨(trimmed.takeWhile (· ≠ '/')).reverse⟩

/-- `filepath.Join` of two elements: empty elements are ignored and the result is cleaned. -/
def joinPath (dirPath name : String) : String :=
  if dirPath = "" then (if name = "" then "" else clean name)
  else if name = "" then clean dirPath
  else clean (dirPath ++ "/" ++ name)

end GoStd

end Supervisord

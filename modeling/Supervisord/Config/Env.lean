import Supervisord.Config.Entry

/-!
# The environment setting of an entry

`GetEnv` reads a value such as `A="env 1",B=this is a test` and returns the
list `A="env 1"`, `B="this is a test"` with each item's placeholders
evaluated. Its scanning loop walks the value with two indices, `start` and
`i`. A Go string is a sequence of bytes: `len(value)` counts the bytes of its
UTF-8 encoding, `value[i]` is a byte and `value[a:b]` cuts bytes. The model
reads the value as its bytes (`bytesOf`), each tagged with the character it
starts, so that a slice, which the loop cuts only at the ASCII delimiters `=`,
`"` and `,` or at an end of the value, reads back as text (`textOf`); the loop
itself looks at the bytes only. We model every index expression `value[i]` and
slice `value[a:b]` of the loop as a checked access, so that an access out of
range is a `BoundsFault`, the run-time panic Go raises there; the reads in the
guards of the inner loops are protected by their `i < n` test and are not
checked again.

The loop is run with explicit fuel. `envLoop_isSome` shows that `len + 1`
rounds always suffice, so the loop terminates on every value, and
`envLoop_fault` shows that the one access that can fail is `value[start]`
after a key: slices never leave the string.
-/

namespace Supervisord

/-- A run-time fault of an index or slice expression on a string of length `n`. -/
inductive BoundsFault where
  | index (i n : Nat)
  | slice (a b n : Nat)
  deriving DecidableEq, Repr

namespace GetEnv

/-! ### The bytes of a value -/

/-- A byte of a value, with the character it starts; the later bytes of a character's
encoding carry `none`. -/
abbrev Byte := UInt8 × Option Char

/-- The UTF-8 bytes of one character. -/
def encodeChar (c : Char) : List Byte :=
  match String.utf8EncodeChar c with
  | [] => []
  | b :: rest => (b, some c) :: rest.map fun b => (b, none)

/-- The bytes of a value, as `len(value)`, `value[i]` and `value[a:b]` see them. -/
def bytesOf (value : List Char) : List Byte := value.flatMap encodeChar

/-- The text of bytes cut at character boundaries. -/
def textOf (bytes : List Byte) : List Char := bytes.filterMap Prod.snd

@[simp] theorem bytesOf_nil : bytesOf [] = [] := rfl

@[simp] theorem bytesOf_cons (c : Char) (value : List Char) :
    bytesOf (c :: value) = encodeChar c ++ bytesOf value := List.flatMap_cons _ _ _

@[simp] theorem bytesOf_append (first second : List Char) :
    bytesOf (first ++ second) = bytesOf first ++ bytesOf second := List.flatMap_append _ _ _

@[simp] theorem textOf_append (first second : List Byte) :
    textOf (first ++ second) = textOf first ++ textOf second := List.filterMap_append _ _ _

theorem map_fst_encodeChar (c : Char) : (encodeChar c).map Prod.fst = String.utf8EncodeChar c := by
  unfold encodeChar
  split <;> simp_all [Function.comp_def]

theorem exists_encodeChar (c : Char) :
    ∃ (b : UInt8) (rest : List UInt8), encodeChar c = (b, some c) :: rest.map fun b => (b, none) := by
  unfold encodeChar
  split
  · next empty =>
      have length := String.length_utf8EncodeChar c
      rw [empty] at length
      exact absurd length (Nat.ne_of_lt (Char.utf8Size_pos c))
  · exact ⟨_, _, rfl⟩

@[simp] theorem textOf_encodeChar (c : Char) : textOf (encodeChar c) = [c] := by
  obtain ⟨b, rest, encoded⟩ := exists_encodeChar c
  simp [encoded, textOf, List.filterMap_map, Function.comp_def]

@[simp] theorem textOf_bytesOf (value : List Char) : textOf (bytesOf value) = value := by
  induction value with
  | nil => rfl
  | cons c rest ih => simp [ih]

/-- The bytes the loop reads are the UTF-8 encoding of the value, which `String.toUTF8`
computes as the same `flatMap`. -/
theorem map_fst_bytesOf (value : List Char) :
    (bytesOf value).map Prod.fst = value.flatMap String.utf8EncodeChar := by
  induction value with
  | nil => rfl
  | cons c rest ih => rw [bytesOf_cons, List.map_append, map_fst_encodeChar, ih, List.flatMap_cons]

/-- The loop's `len(value)`. -/
theorem length_bytesOf (value : String) : (bytesOf value.toList).length = value.utf8ByteSize := by
  rw [← List.length_map _ Prod.fst, map_fst_bytesOf, ← String.size_toUTF8]
  rfl

theorem length_le_bytesOf (value : List Char) : value.length ≤ (bytesOf value).length := by
  induction value with
  | nil => exact le_refl _
  | cons c rest ih =>
      obtain ⟨b, more, encoded⟩ := exists_encodeChar c
      simp only [bytesOf_cons, encoded, List.length_append, List.length_cons, List.length_map]
      omega

/-- Every byte of a character's encoding past its first has the high bit set, and so does
the first of a longer encoding: `utf8EncodeChar` sets it with `||| 0x80` or a wider mask. -/
theorem le_toNat_or (byte mask : UInt8) (high : mask.toNat.testBit 7 = true) :
    128 ≤ (byte ||| mask).toNat := by
  have set : (byte ||| mask).toNat.testBit 7 = true := by
    show (byte.toBitVec ||| mask.toBitVec).toNat.testBit 7 = true
    rw [BitVec.toNat_or, Nat.testBit_or]
    exact Bool.or_eq_true_iff.mpr (.inr high)
  exact Nat.testBit_implies_ge set

/-- A byte below 128 of a character's encoding is its whole encoding: the character is ASCII. -/
theorem ascii_of_mem_utf8EncodeChar {c : Char} {b : UInt8} (mem : b ∈ String.utf8EncodeChar c)
    (low : b.toNat < 128) : b = c.toUInt8 ∧ c.val.toNat < 128 := by
  unfold String.utf8EncodeChar at mem
  dsimp only at mem
  split_ifs at mem with one
  · exact ⟨List.mem_singleton.mp mem, Nat.lt_succ_of_le (UInt32.le_def.mp one)⟩
  all_goals
    simp only [List.mem_cons, List.mem_singleton, List.not_mem_nil, or_false] at mem
    rcases mem with rfl | rfl | rfl | rfl <;> exact absurd low (Nat.not_lt.mpr (le_toNat_or _ _ rfl))

theorem toNat_toUInt8 (c : Char) : c.toUInt8.toNat = c.val.toNat % 256 := by
  simp [Char.toUInt8, UInt32.toUInt8, Nat.toUInt8, UInt8.toNat, UInt8.ofNat]

/-- The byte of an ASCII character `d` occurs only in the encoding of `d`. -/
theorem eq_of_mem_encodeChar {c d : Char} (ascii : d.val.toNat < 128) {p : Byte}
    (mem : p ∈ encodeChar c) (byte : p.1 = d.toUInt8) : c = d := by
  have encoded : p.1 ∈ String.utf8EncodeChar c := map_fst_encodeChar c ▸ List.mem_map_of_mem _ mem
  have low : p.1.toNat < 128 := by rw [byte, toNat_toUInt8]; omega
  obtain ⟨same, small⟩ := ascii_of_mem_utf8EncodeChar encoded low
  have toNat := congrArg UInt8.toNat (same.symm.trans byte)
  rw [toNat_toUInt8, toNat_toUInt8] at toNat
  exact Char.ext (UInt32.toNat.inj (by omega))

/-- A value without the ASCII character `d` has no byte of `d`. -/
theorem fst_ne_of_not_mem {d : Char} (ascii : d.val.toNat < 128) {value : List Char}
    (absent : d ∉ value) : ∀ p ∈ bytesOf value, p.1 ≠ d.toUInt8 := by
  intro p mem byte
  obtain ⟨c, inValue, inChar⟩ := List.mem_flatMap.mp mem
  exact absent (eq_of_mem_encodeChar ascii inChar byte ▸ inValue)

@[simp] theorem encodeChar_equals : encodeChar '=' = [('='.toUInt8, some '=')] := rfl

@[simp] theorem encodeChar_quote : encodeChar '"' = [('"'.toUInt8, some '"')] := rfl

@[simp] theorem encodeChar_comma : encodeChar ',' = [(','.toUInt8, some ',')] := rfl

/-! ### The scanning loop -/

/-- `value[i]`: the byte at `i`. -/
def goIndex (value : List Byte) (i : Nat) : Except BoundsFault UInt8 :=
  match value.get? i with
  | some b => .ok b.1
  | none => .error (.index i value.length)

/-- `value[a:b]`. -/
def goSlice (value : List Byte) (a b : Nat) : Except BoundsFault (List Byte) :=
  if a ≤ b ∧ b ≤ value.length then .ok ((value.drop a).take (b - a))
  else .error (.slice a b value.length)

/-- `for i = from; i < n && value[i] != c; { i++ }`: the first index from `from` on
that holds the byte of `c`, or `n`. -/
def scanTo (value : List Byte) (c : Char) (start : Nat) : Nat :=
  start + (value.drop start).findIdx (·.1 = c.toUInt8)

/-- `fmt.Sprintf("%s=\"%s\"", key, v)`. -/
def item (key v : List Char) : String := String.mk key ++ "=" ++ "\"" ++ String.mk v ++ "\""

/-- How one round of the scanning loop ends. -/
inductive Round where
  | next (start : Nat) (env : List String)
  | stop (env : List String)
  | fault (fault : BoundsFault)

/-- One round of the scanning loop of `GetEnv`, from `start` with the items `env` so far. -/
def round (value : List Byte) (start : Nat) (env : List String) : Round :=
  let n := value.length
  let i := scanTo value '=' start
  match goSlice value start i with
  | .error f => .fault f
  | .ok key =>
      let start := i + 1
      match goIndex value start with
      | .error f => .fault f
      | .ok c =>
          if c = '"'.toUInt8 then
            let i := scanTo value '"' (start + 1)
            let env : Except BoundsFault (List String) :=
              if i < n then (fun v => env ++ [item (textOf key) (textOf v)]) <$>
                goSlice value (start + 1) i
              else .ok env
            match env with
            | .error f => .fault f
            | .ok env =>
                if i + 1 < n ∧ (value.get? (i + 1)).map Prod.fst = some ','.toUInt8 then
                  .next (i + 2) env
                else .stop env
          else
            let i := scanTo value ',' start
            if i < n then
              match goSlice value start i with
              | .error f => .fault f
              | .ok v => .next (i + 1) (env ++ [item (textOf key) (textOf v)])
            else
              match goSlice value start n with
              | .error f => .fault f
              | .ok v => .stop (env ++ [item (textOf key) (textOf v)])

/-- The scanning loop with `fuel` rounds: `none` when the fuel runs out. -/
def envLoop (value : List Byte) : Nat → Nat → List String → Option (Except BoundsFault (List String))
  | 0, _, _ => none
  | fuel + 1, start, env =>
      match round value start env with
      | .next start env => envLoop value fuel start env
      | .stop env => some (.ok env)
      | .fault f => some (.error f)

/-! ### Bounds of the scanning loop -/

theorem le_scanTo (value : List Byte) (c : Char) (start : Nat) : start ≤ scanTo value c start :=
  Nat.le_add_right _ _

theorem scanTo_le (value : List Byte) (c : Char) {start : Nat} (inRange : start ≤ value.length) :
    scanTo value c start ≤ value.length := by
  have bound : (value.drop start).findIdx (·.1 = c.toUInt8) ≤ (value.drop start).length :=
    List.findIdx_le_length _
  simp only [List.length_drop] at bound
  unfold scanTo
  omega

theorem goSlice_ok (value : List Byte) {a b : Nat} (ordered : a ≤ b) (inRange : b ≤ value.length) :
    goSlice value a b = .ok ((value.drop a).take (b - a)) := by
  simp [goSlice, ordered, inRange]

theorem goIndex_error (value : List Byte) {i : Nat} {f : BoundsFault}
    (failed : goIndex value i = .error f) : f = .index i value.length ∧ value.length ≤ i := by
  unfold goIndex at failed
  split at failed
  · cases failed
  · next none =>
      cases failed
      exact ⟨rfl, List.get?_eq_none.mp none⟩

theorem goIndex_ok (value : List Byte) {i : Nat} {c : UInt8} (read : goIndex value i = .ok c) :
    i < value.length := by
  unfold goIndex at read
  split at read
  · next some => exact (List.get?_eq_some.mp some).1
  · cases read

/-- What a round from `start` may end in, on a value of length `n`: going on from a later
`start` that is still inside the value, stopping, or faulting at an index at or past its end. -/
def RoundOk (n start : Nat) : Round → Prop
  | .next start' _ => start < start' ∧ start' ≤ n
  | .stop _ => True
  | .fault f => ∃ i, f = .index i n ∧ n ≤ i

/-- Every slice of a round from inside the value is in range, and a round that goes on
moves forward. -/
theorem round_ok (value : List Byte) {start : Nat} (env : List String)
    (inRange : start ≤ value.length) : RoundOk value.length start (round value start env) := by
  have keyStart := le_scanTo value '=' start
  have keyEnd := scanTo_le value '=' inRange
  unfold round
  dsimp only
  rw [goSlice_ok value keyStart keyEnd]
  dsimp only
  split
  · next f failed => exact ⟨_, goIndex_error value failed⟩
  · next c read =>
      have valueStart := goIndex_ok value read
      split
      · have quoteEnd := le_scanTo value '"' (scanTo value '=' start + 1 + 1)
        split
        · next f items =>
            split at items
            · next closed =>
                rw [goSlice_ok value quoteEnd (Nat.le_of_lt closed)] at items
                cases items
            · cases items
        · split
          · exact ⟨by omega, by omega⟩
          · trivial
      · have itemEnd := le_scanTo value ',' (scanTo value '=' start + 1)
        split
        · next comma =>
            rw [goSlice_ok value itemEnd (Nat.le_of_lt comma)]
            exact ⟨by omega, by omega⟩
        · rw [goSlice_ok value (by omega) (le_refl _)]
          trivial

/-- Enough fuel: every round moves `start` forward inside the value, so the loop
ends before the fuel does. -/
theorem envLoop_isSome (value : List Byte) (fuel start : Nat) (env : List String)
    (inRange : start ≤ value.length) (enough : value.length + 1 ≤ fuel + start) :
    (envLoop value fuel start env).isSome := by
  induction fuel generalizing start env with
  | zero => omega
  | succ fuel ih =>
      unfold envLoop
      have ok := round_ok value env inRange
      cases step : round value start env with
      | next start' env' =>
          rw [step] at ok
          obtain ⟨forward, inside⟩ := ok
          exact ih start' env' inside (by omega)
      | stop env' => rfl
      | fault f => rfl

/-- A fault of the loop is an index at or past the end of the value. -/
theorem envLoop_fault (value : List Byte) (fuel start : Nat) (env : List String) {f : BoundsFault}
    (inRange : start ≤ value.length) (fault : envLoop value fuel start env = some (.error f)) :
    ∃ i, f = .index i value.length ∧ value.length ≤ i := by
  induction fuel generalizing start env with
  | zero => cases fault
  | succ fuel ih =>
      unfold envLoop at fault
      have ok := round_ok value env inRange
      cases step : round value start env with
      | next start' env' =>
          rw [step] at fault ok
          exact ih start' env' ok.2 fault
      | stop env' =>
          rw [step] at fault
          cases fault
      | fault f' =>
          rw [step] at fault ok
          cases fault
          exact ok

/-- The scanning loop of `GetEnv` on a whole value, with `len(value) + 1` rounds. -/
def scan (value : String) : Except BoundsFault (List String) :=
  (envLoop (bytesOf value.toList) (value.utf8ByteSize + 1) 0 []).getD (.ok [])

/-- The loop of `GetEnv` ends on every value, within `len + 1` rounds. -/
theorem scan_terminates (value : String) :
    (envLoop (bytesOf value.toList) (value.utf8ByteSize + 1) 0 []).isSome :=
  envLoop_isSome _ _ _ _ (Nat.zero_le _) (by rw [length_bytesOf])

/-- Every slice of the loop is in range: a fault of `scan` is the index `value[start]`
at or past the end of the value. -/
theorem scan_fault (value : String) {f : BoundsFault} (fault : scan value = .error f) :
    ∃ i, f = .index i value.utf8ByteSize ∧ value.utf8ByteSize ≤ i := by
  obtain ⟨result, loop⟩ := Option.isSome_iff_exists.mp (scan_terminates value)
  rw [scan, loop, Option.getD_some] at fault
  rw [← length_bytesOf]
  exact envLoop_fault _ _ 0 [] (Nat.zero_le _) (loop.trans (congrArg some fault))

/-! ### The loop on a well-formed value

A setting is written from a list of pairs as `k_1=v_1,...,k_m=v_m`, where each value is a
word in double quotes or a bare word. `scan_envText` shows that the loop reads such a
setting back as the items `k_j="w_j"`, in order, when it is well formed: there is a pair,
no key holds `=`, no quoted word holds `"`, and a bare word holds no `,`, does not start
with `"`, and is not empty in the last pair. Each round reads one pair (`round_pair`). -/

/-- How the value of a pair is written: a word in double quotes, or a bare word. -/
inductive EnvValue where
  | quoted (word : List Char)
  | bare (word : List Char)
  deriving DecidableEq, Repr

namespace EnvValue

/-- The characters of the value in the setting. -/
def text : EnvValue → List Char
  | quoted word => '"' :: word ++ ['"']
  | bare word => word

/-- The word the value stands for. -/
def word : EnvValue → List Char
  | quoted word | bare word => word

/-- What the loop needs of a value wherever it stands: a quoted word holds no `"`; a bare
word holds no `,` and does not start with `"`. -/
def Fine : EnvValue → Prop
  | quoted word => '"' ∉ word
  | bare word => ',' ∉ word ∧ word.head? ≠ some '"'

instance : DecidablePred Fine
  | quoted _ => inferInstanceAs (Decidable (_ ∉ _))
  | bare _ => inferInstanceAs (Decidable (_ ∧ _))

end EnvValue

/-- The text `k=v` of one pair. -/
def pairText (pair : List Char × EnvValue) : List Char := pair.1 ++ '=' :: pair.2.text

/-- The setting `k_1=v_1,k_2=v_2,...,k_m=v_m` of a list of pairs. -/
def envText : List (List Char × EnvValue) → List Char
  | [] => []
  | [pair] => pairText pair
  | pair :: next :: rest => pairText pair ++ ',' :: envText (next :: rest)

/-- A list of pairs whose setting the loop reads whole. -/
structure WellFormed (pairs : List (List Char × EnvValue)) : Prop where
  nonempty : pairs ≠ []
  key : ∀ pair ∈ pairs, '=' ∉ pair.1
  value : ∀ pair ∈ pairs, pair.2.Fine
  last : ∀ key word, pairs.getLast? = some (key, .bare word) → word ≠ []

theorem WellFormed.tail {pair next : List Char × EnvValue} {rest : List (List Char × EnvValue)}
    (wf : WellFormed (pair :: next :: rest)) : WellFormed (next :: rest) where
  nonempty := List.cons_ne_nil _ _
  key p mem := wf.key p (List.mem_cons_of_mem _ mem)
  value p mem := wf.value p (List.mem_cons_of_mem _ mem)
  last key word isLast := wf.last key word (by rwa [List.getLast?_cons_cons])

/-- The scan from the end of `pre` runs over `xs`, which holds no byte of `c`, and stops
where that byte or the end of the value comes. -/
theorem scanTo_split {value : List Byte} {c : Char} {i : Nat} (pre xs ys : List Byte)
    (split : value = pre ++ xs ++ ys) (offset : pre.length = i)
    (absent : ∀ p ∈ xs, p.1 ≠ c.toUInt8)
    (stops : ys = [] ∨ ys.head?.map Prod.fst = some c.toUInt8) :
    scanTo value c i = i + xs.length := by
  subst split offset
  have past : xs.findIdx (·.1 = c.toUInt8) = xs.length :=
    List.findIdx_eq_length_of_false fun p mem => by simpa using absent p mem
  have stop : ys.findIdx (·.1 = c.toUInt8) = 0 := by
    rcases stops with rfl | first
    · rfl
    · cases ys with
      | nil => rfl
      | cons y ys => simp_all [List.findIdx_cons]
  simp [scanTo, List.findIdx_append, past, stop]

theorem goSlice_split {value : List Byte} {i : Nat} (pre xs ys : List Byte)
    (split : value = pre ++ xs ++ ys) (offset : pre.length = i) :
    goSlice value i (i + xs.length) = .ok xs := by
  subst split offset
  rw [goSlice_ok _ (Nat.le_add_right _ _) (by simp)]
  simp

theorem get?_split {value : List Byte} {i : Nat} (pre : List Byte) (p : Byte) (ys : List Byte)
    (split : value = pre ++ p :: ys) (offset : pre.length = i) : value.get? i = some p := by
  subst split offset
  rw [List.get?_eq_getElem?, List.getElem?_append_right (le_refl _)]
  simp

theorem goIndex_split {value : List Byte} {i : Nat} (pre : List Byte) (p : Byte)
    (ys : List Byte) (split : value = pre ++ p :: ys) (offset : pre.length = i) :
    goIndex value i = .ok p.1 := by
  rw [goIndex, get?_split pre p ys split offset]

/-- The round that starts at a pair reads it: it stops after the pair at the end of the
value, and goes on after the comma that follows it. -/
theorem round_pair (pre : List Byte) {key : List Char} {v : EnvValue} {tail : List Char}
    (env : List String) (keyOk : '=' ∉ key) (fine : v.Fine)
    (ends : tail = [] ∨ ∃ rest, tail = ',' :: rest) (last : tail = [] → v.text ≠ []) :
    round (pre ++ bytesOf (pairText (key, v)) ++ bytesOf tail) pre.length env =
      if tail = [] then .stop (env ++ [item key v.word])
      else .next (pre.length + (bytesOf (pairText (key, v))).length + 1)
        (env ++ [item key v.word]) := by
  set value := pre ++ bytesOf (pairText (key, v)) ++ bytesOf tail with hvalue
  have keyEnd : scanTo value '=' pre.length = pre.length + (bytesOf key).length :=
    scanTo_split pre (bytesOf key) (bytesOf ('=' :: (v.text ++ tail)))
      (by simp [hvalue, pairText]) rfl (fst_ne_of_not_mem (by decide) keyOk) (.inr (by simp))
  have keyRead : goSlice value pre.length (pre.length + (bytesOf key).length) = .ok (bytesOf key) :=
    goSlice_split pre (bytesOf key) (bytesOf ('=' :: (v.text ++ tail)))
      (by simp [hvalue, pairText]) rfl
  unfold round
  simp only [keyEnd, keyRead, textOf_bytesOf]
  cases v with
  | quoted word =>
      have split : value = pre ++ bytesOf key ++ [('='.toUInt8, some '='), ('"'.toUInt8, some '"')] ++
          bytesOf word ++ ('"'.toUInt8, some '"') :: bytesOf tail := by
        simp [hvalue, pairText, EnvValue.text]
      have opening : goIndex value (pre.length + (bytesOf key).length + 1) = .ok '"'.toUInt8 :=
        goIndex_split (pre ++ bytesOf key ++ [('='.toUInt8, some '=')]) ('"'.toUInt8, some '"')
          (bytesOf word ++ ('"'.toUInt8, some '"') :: bytesOf tail) (by simp [split])
          (by simp; omega)
      have closing : scanTo value '"' (pre.length + (bytesOf key).length + 1 + 1) =
          pre.length + (bytesOf key).length + 1 + 1 + (bytesOf word).length :=
        scanTo_split _ (bytesOf word) (('"'.toUInt8, some '"') :: bytesOf tail) split
          (by simp; omega) (fst_ne_of_not_mem (by decide) fine) (.inr rfl)
      have wordRead : goSlice value (pre.length + (bytesOf key).length + 1 + 1)
          (pre.length + (bytesOf key).length + 1 + 1 + (bytesOf word).length) = .ok (bytesOf word) :=
        goSlice_split _ (bytesOf word) (('"'.toUInt8, some '"') :: bytesOf tail) split
          (by simp; omega)
      have length : value.length =
          pre.length + (bytesOf key).length + (bytesOf word).length + 3 + (bytesOf tail).length := by
        simp [split]
        omega
      simp only [opening, closing, wordRead, length, textOf_bytesOf]
      rw [if_pos trivial, if_pos (by omega)]
      rcases ends with rfl | ⟨rest, rfl⟩
      · simp [EnvValue.word]
        exact fun past => absurd past (by omega)
      · have comma : value.get? (pre.length + (bytesOf key).length + 1 + 1 + (bytesOf word).length + 1) =
            some (','.toUInt8, some ',') :=
          get?_split (pre ++ bytesOf (pairText (key, .quoted word))) _ (bytesOf rest)
            (by simp [hvalue]) (by simp [pairText, EnvValue.text]; omega)
        have lengths : (bytesOf (',' :: rest)).length = (bytesOf rest).length + 1 ∧
            (bytesOf (pairText (key, .quoted word))).length =
              (bytesOf key).length + (bytesOf word).length + 3 := by
          simp [pairText, EnvValue.text]
          omega
        simp only [Functor.map, Except.map, if_neg (List.cons_ne_nil _ _)]
        rw [if_pos ⟨by omega, by rw [comma]; rfl⟩, lengths.2, textOf_bytesOf]
        congr 1
        omega
  | bare word =>
      obtain ⟨noComma, notQuote⟩ : ',' ∉ word ∧ word.head? ≠ some '"' := fine
      have split : value = pre ++ bytesOf key ++ [('='.toUInt8, some '=')] ++ bytesOf word ++
          bytesOf tail := by
        simp [hvalue, pairText, EnvValue.text]
      have wordEnd : scanTo value ',' (pre.length + (bytesOf key).length + 1) =
          pre.length + (bytesOf key).length + 1 + (bytesOf word).length :=
        scanTo_split (pre ++ bytesOf key ++ [('='.toUInt8, some '=')]) (bytesOf word) (bytesOf tail)
          split (by simp; omega) (fst_ne_of_not_mem (by decide) noComma)
          (ends.imp (fun empty => by simp [empty]) fun ⟨rest, comma⟩ => by simp [comma])
      have wordRead : goSlice value (pre.length + (bytesOf key).length + 1)
          (pre.length + (bytesOf key).length + 1 + (bytesOf word).length) = .ok (bytesOf word) :=
        goSlice_split (pre ++ bytesOf key ++ [('='.toUInt8, some '=')]) (bytesOf word) (bytesOf tail)
          split (by simp; omega)
      have opening : ∃ c, c ≠ '"'.toUInt8 ∧
          goIndex value (pre.length + (bytesOf key).length + 1) = .ok c := by
        cases word with
        | cons c more =>
            obtain ⟨b, bytes, encoded⟩ := exists_encodeChar c
            have first : (b, some c) ∈ encodeChar c := by
              rw [encoded]
              exact List.mem_cons_self _ _
            refine ⟨b, fun quote => notQuote ?_, goIndex_split
              (pre ++ bytesOf key ++ [('='.toUInt8, some '=')]) (b, some c)
              (bytes.map (·, none) ++ bytesOf more ++ bytesOf tail) (by simp [split, encoded])
              (by simp; omega)⟩
            rw [eq_of_mem_encodeChar (by decide) first quote]
            rfl
        | nil =>
            obtain ⟨rest, rfl⟩ := ends.resolve_left fun empty => last empty rfl
            exact ⟨_, by decide, goIndex_split (pre ++ bytesOf key ++ [('='.toUInt8, some '=')])
              (','.toUInt8, some ',') (bytesOf rest) (by simp [split]) (by simp; omega)⟩
      obtain ⟨c, notQuote, opening⟩ := opening
      simp only [opening, if_neg notQuote, wordEnd]
      rcases ends with rfl | ⟨rest, rfl⟩
      · have length : value.length = pre.length + (bytesOf key).length + 1 + (bytesOf word).length := by
          simp [split]
          omega
        simp [length, wordRead, EnvValue.word]
      · have length : value.length =
            pre.length + (bytesOf key).length + 1 + (bytesOf word).length + 1 + (bytesOf rest).length := by
          simp [split]
          omega
        rw [length, if_pos (by omega), wordRead]
        simp [pairText, EnvValue.text, EnvValue.word]
        omega

theorem length_le_envText : ∀ pairs : List (List Char × EnvValue),
    pairs.length ≤ (envText pairs).length
  | [] => le_refl _
  | [_] => by
      simp only [envText, pairText, List.length_append, List.length_cons, List.length_nil]
      omega
  | pair :: next :: rest => by
      have shorter := length_le_envText (next :: rest)
      simp only [envText, pairText, List.length_append, List.length_cons] at shorter ⊢
      omega

/-- The value of the last pair of a well-formed list is not empty. -/
theorem WellFormed.text_ne_nil {key : List Char} {v : EnvValue}
    (wf : WellFormed [(key, v)]) : v.text ≠ [] := by
  cases v with
  | quoted word => simp [EnvValue.text]
  | bare word => exact wf.last key word rfl

/-- From the start of a well-formed setting, the loop reads one pair per round and stops
after the last. -/
theorem envLoop_envText (pre : List Byte) {pairs : List (List Char × EnvValue)}
    (wf : WellFormed pairs) (fuel : Nat) (enough : pairs.length ≤ fuel) (env : List String) :
    envLoop (pre ++ bytesOf (envText pairs)) fuel pre.length env =
      some (.ok (env ++ pairs.map fun pair => item pair.1 pair.2.word)) := by
  induction pairs generalizing pre fuel env with
  | nil => exact absurd rfl wf.nonempty
  | cons pair rest ih =>
      obtain ⟨key, v⟩ := pair
      obtain ⟨fuel, rfl⟩ : ∃ f, fuel = f + 1 := ⟨fuel - 1, by simp at enough; omega⟩
      have keyOk := wf.key _ (List.mem_cons_self _ _)
      have fine := wf.value _ (List.mem_cons_self _ _)
      cases rest with
      | nil =>
          have step := round_pair pre env keyOk fine (Or.inl rfl) fun _ => wf.text_ne_nil
          rw [bytesOf_nil, List.append_nil, if_pos rfl] at step
          rw [envText, envLoop, step]
          simp
      | cons next rest =>
          have step := round_pair pre env keyOk fine (Or.inr ⟨_, rfl⟩)
            fun empty => absurd empty (List.cons_ne_nil _ (envText (next :: rest)))
          rw [if_neg (List.cons_ne_nil _ _)] at step
          have later := ih (pre ++ bytesOf (pairText (key, v)) ++ bytesOf [',']) wf.tail fuel
            (by simpa using enough) (env ++ [item key v.word])
          rw [envText, envLoop, bytesOf_append, ← List.append_assoc, step]
          simpa using later

/-- The scanning loop reads a well-formed setting back as its items `k="w"`, in order. -/
theorem scan_envText {pairs : List (List Char × EnvValue)} (wf : WellFormed pairs) :
    scan (String.mk (envText pairs)) = .ok (pairs.map fun pair => item pair.1 pair.2.word) := by
  have run := envLoop_envText [] wf ((bytesOf (envText pairs)).length + 1)
    (Nat.le_succ_of_le ((length_le_envText pairs).trans (length_le_bytesOf _))) []
  rw [List.nil_append, List.nil_append, List.length_nil] at run
  have fuel : (String.mk (envText pairs)).utf8ByteSize = (bytesOf (envText pairs)).length :=
    (length_bytesOf _).symm
  show (envLoop (bytesOf (envText pairs)) ((String.mk (envText pairs)).utf8ByteSize + 1) 0 []).getD _ = _
  rw [fuel, run]
  rfl

/-- The first round on a value whose first key is `key`, followed by `rest`, which is
empty or the `=` alone: the read of `value[start]` after the key is out of range. -/
theorem round_key_without_value {key rest : List Char} (noKey : '=' ∉ key)
    (ends : rest = [] ∨ rest = ['=']) :
    round (bytesOf (key ++ rest)) 0 [] =
      .fault (.index ((bytesOf key).length + 1) (bytesOf (key ++ rest)).length) := by
  have keyEnd : scanTo (bytesOf (key ++ rest)) '=' 0 = (bytesOf key).length :=
    (scanTo_split [] (bytesOf key) (bytesOf rest) (by simp) rfl
      (fst_ne_of_not_mem (by decide) noKey)
      (ends.imp (fun empty => by simp [empty]) fun single => by simp [single])).trans
      (Nat.zero_add _)
  have keyRead : goSlice (bytesOf (key ++ rest)) 0 (bytesOf key).length = .ok (bytesOf key) := by
    simpa using goSlice_split [] (bytesOf key) (bytesOf rest) (by simp) rfl
  have past : goIndex (bytesOf (key ++ rest)) ((bytesOf key).length + 1) =
      .error (.index ((bytesOf key).length + 1) (bytesOf (key ++ rest)).length) := by
    rw [goIndex, List.get?_eq_none.mpr (by rcases ends with rfl | rfl <;> simp)]
  unfold round
  simp only [keyEnd, keyRead, Nat.zero_add, past]

/-- A setting with no `=`, the empty one included, or whose only `=` is its last
character names a key with no value: the loop reads past the end of the value, which Go
reports as an index out of range. Go's indices and lengths count the bytes of the value. -/
theorem scan_key_without_value :
    (∀ value : String, '=' ∉ value.toList →
      scan value = .error (.index (value.utf8ByteSize + 1) value.utf8ByteSize)) ∧
    ∀ key : String, '=' ∉ key.toList →
      scan (key ++ "=") = .error (.index (key.utf8ByteSize + 1) (key.utf8ByteSize + 1)) := by
  constructor
  · intro value noKey
    have faulted := round_key_without_value noKey (Or.inl rfl)
    rw [List.append_nil, length_bytesOf] at faulted
    simp only [scan, envLoop, faulted, Option.getD_some]
  · intro key noKey
    have faulted := round_key_without_value noKey (Or.inr rfl)
    have size : (bytesOf (key.toList ++ ['='])).length = key.utf8ByteSize + 1 := by
      simp [← length_bytesOf]
    rw [size, length_bytesOf] at faulted
    simp only [scan, envLoop]
    rw [show (key ++ "=").toList = key.toList ++ ['='] from rfl, faulted]
    rfl

/-- `é` is two bytes: the setting `é` reads index 3 of a value of length 2, and `é=` reads
index 3 of a value of length 3. -/
theorem scan_key_without_value_accent :
    '=' ∉ "é".toList ∧ scan "é" = .error (.index 3 2) ∧ scan ("é" ++ "=") = .error (.index 3 3) :=
  have accent : '=' ∉ "é".toList := by decide
  ⟨accent, (scan_key_without_value.1 "é" accent).trans rfl,
    (scan_key_without_value.2 "é" accent).trans rfl⟩

/-- A quoted word holding `,` and `=`, an empty bare word, and a last bare word holding `=`. -/
theorem scan_envText_mixed :
    let pairs : List (List Char × EnvValue) := [("A".toList, .quoted "env, 1=2".toList),
      ("B".toList, .bare []), ("C".toList, .bare "x=y".toList)]
    WellFormed pairs ∧
      scan (String.mk (envText pairs)) = .ok ["A=\"env, 1=2\"", "B=\"\"", "C=\"x=y\""] :=
  have wf : WellFormed [("A".toList, .quoted "env, 1=2".toList), ("B".toList, .bare []),
      ("C".toList, .bare "x=y".toList)] :=
    ⟨by decide, by decide, by decide, fun _ _ last => by cases last; decide⟩
  ⟨wf, (scan_envText wf).trans rfl⟩

end GetEnv

namespace ConfigEntry

/-- `GetEnv`: the items of the value under `key`, each evaluated with the entry's
bindings; an item that does not evaluate is dropped. -/
def getEnv (entry : ConfigEntry) (key : String) : Except BoundsFault (List String) :=
  let env := match entry.keyValues.lookup key with
    | some value => GetEnv.scan value
    | none => .ok []
  let envs : StringExpression := ⟨[("program_name", entry.getProgramName),
    ("process_num", entry.getString "process_num" "0"), ("group_name", entry.getGroupName),
    ("here", entry.configDir)]⟩
  env.map fun items => items.filterMap fun e =>
    match envs.eval e with
    | .ok tmp => some tmp
    | .error _ => none

/-- A value without `=`: after reading the key `A`, the loop reads `value[2]` of a
value of length 1. -/
theorem getEnv_reads_past_end :
    ({ newConfigEntry "/etc" with keyValues := GoMap.ofList [("environment", "A")] }).getEnv
      "environment" = .error (.index 2 1) := rfl

end ConfigEntry

end Supervisord

import Supervisord.GoStd

/-!
# The regular expressions of `regexp.MatchString`

`getIncludeFiles` turns a file pattern into a Go regular expression and asks
`regexp.MatchString` whether a file name matches it. `MatchString` compiles the
expression, failing on a syntax error, and reports whether some substring of
the name matches: the search is not anchored.

We model the fragment of Go's RE2 syntax that `toRegexp` produces from the
characters of file names: literal characters, `.` (any character but a
newline), an escaped punctuation character such as `\.`, each optionally
followed by `*`, `+` or `?`; a `?` right after one of these makes it lazy,
which changes no match. A repetition operator with no operand, a doubled
repetition, and the metacharacters `( ) [ ] { } | ^ $` are reported as errors:
groups, classes, alternation and anchors are outside the model.
-/

namespace Supervisord

namespace Regexp

/-- A single-character matcher. -/
inductive Atom where
  | lit (c : Char)
  | any
  deriving DecidableEq, Repr

/-- The repetition operators. -/
inductive Repeat where
  | star
  | plus
  | opt
  deriving DecidableEq, Repr

/-- An atom with the repetition operator that follows it, if any. -/
structure Piece where
  atom : Atom
  rep : Option Repeat
  deriving DecidableEq, Repr

/-- A lexical token of an expression. -/
inductive Token where
  | atom (atom : Atom)
  | rep (rep : Repeat)
  deriving DecidableEq, Repr

def Atom.matches : Atom → Char → Bool
  | .lit c, d => c = d
  | .any, d => d ≠ '\n'

/-- The characters with a syntactic meaning in Go's regular expressions. -/
def isMeta (c : Char) : Bool := "\\.+*?()|[]{}^$".toList.contains c

/-- The tokens of an expression, `none` on a character outside the fragment. -/
def lex : List Char → Option (List Token)
  | [] => some []
  | '\\' :: c :: rest => if isMeta c then (.atom (.lit c) :: ·) <$> lex rest else none
  | '.' :: rest => (.atom .any :: ·) <$> lex rest
  | '*' :: rest => (.rep .star :: ·) <$> lex rest
  | '+' :: rest => (.rep .plus :: ·) <$> lex rest
  | '?' :: rest => (.rep .opt :: ·) <$> lex rest
  | c :: rest => if isMeta c then none else (.atom (.lit c) :: ·) <$> lex rest

/-- The tokens grouped into pieces; a repetition with no atom before it is an error. -/
def group : List Token → Option (List Piece)
  | [] => some []
  | .atom a :: .rep r :: .rep .opt :: rest => (⟨a, some r⟩ :: ·) <$> group rest
  | .atom a :: .rep r :: rest => (⟨a, some r⟩ :: ·) <$> group rest
  | .atom a :: rest => (⟨a, none⟩ :: ·) <$> group rest
  | .rep _ :: _ => none

/-- Compilation of an expression: `none` is the error of `regexp.Compile`. -/
def compile (expr : String) : Option (List Piece) := lex expr.toList >>= group

/-- `star atom k s`: some run of characters matched by `atom` at the start of `s`
leaves a rest accepted by `k`. -/
def star (atom : Atom) (k : List Char → Bool) : List Char → Bool
  | [] => k []
  | c :: rest => k (c :: rest) || (atom.matches c && star atom k rest)

/-- The pieces match a prefix of the input. -/
def matchHere : List Piece → List Char → Bool
  | [], _ => true
  | ⟨a, none⟩ :: rest, s =>
      match s with
      | c :: s' => a.matches c && matchHere rest s'
      | [] => false
  | ⟨a, some .opt⟩ :: rest, s =>
      matchHere rest s ||
        match s with
        | c :: s' => a.matches c && matchHere rest s'
        | [] => false
  | ⟨a, some .star⟩ :: rest, s => star a (matchHere rest) s
  | ⟨a, some .plus⟩ :: rest, s =>
      match s with
      | c :: s' => a.matches c && star a (matchHere rest) s'
      | [] => false

/-- The pieces match some substring of the input. -/
def search (pieces : List Piece) (s : List Char) : Bool := s.tails.any (matchHere pieces)

/-- `regexp.MatchString(expr, s)`: `none` is a compile error, else whether some
substring of `s` matches. -/
def matchString (expr s : String) : Option Bool :=
  (compile expr).map fun pieces => search pieces s.toList

end Regexp

end Supervisord

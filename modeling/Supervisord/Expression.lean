import Supervisord.GoStd

/-!
# The expression evaluator

Configuration strings name values with `%(name)s` and `%(name)d` placeholders:
`%(process_num)d`, `%(program_name)s`, `%(here)s`. The evaluator,
`StringExpression`, is called from the configuration loader but is not part of
the sources we model, so it is modelled from the spec (§4.1): every placeholder
whose name has a binding is replaced by the bound text, a placeholder whose name
has none fails the whole evaluation, and substitution is not recursive, since
the scan goes on after the inserted text.

The spec leaves text that only starts like a placeholder (a `%` not followed by
`(`, or `%(name)` followed by another letter) unspecified; it is kept as it is.
The scan is a small automaton over the characters, so `eval` is structural and
evaluates in the kernel.
-/

namespace Supervisord

/--
Modelled from the spec: `StringExpression` is not among the sources. It holds
the bindings `NewStringExpression` is given, in the order given.
-/
structure StringExpression where
  env : List (String × String)

namespace StringExpression

/-- Where the scan stands: in text, after `%`, inside `%(`, or after `%(name)`. -/
inductive ScanState where
  | text
  | percent
  | name (acc : List Char)
  | closed (name : List Char)

/-- The substitution automaton: the output for the rest of the input from a state. -/
def scan (env : List (String × String)) : ScanState → List Char → Except String (List Char)
  | .text, [] => .ok []
  | .percent, [] => .ok ['%']
  | .name acc, [] => .ok ('%' :: '(' :: acc)
  | .closed n, [] => .ok ('%' :: '(' :: n ++ [')'])
  | .text, c :: rest =>
      if c = '%' then scan env .percent rest else (c :: ·) <$> scan env .text rest
  | .percent, c :: rest =>
      if c = '(' then scan env (.name []) rest
      else if c = '%' then ('%' :: ·) <$> scan env .percent rest
      else (['%', c] ++ ·) <$> scan env .text rest
  | .name acc, c :: rest =>
      if c = ')' then scan env (.closed acc) rest else scan env (.name (acc ++ [c])) rest
  | .closed n, c :: rest =>
      if c = 's' ∨ c = 'd' then
        match env.lookup (String.mk n) with
        | some value => (value.toList ++ ·) <$> scan env .text rest
        | none => .error ("unknown placeholder " ++ String.mk n)
      else if c = '%' then (('%' :: '(' :: n ++ [')']) ++ ·) <$> scan env .percent rest
      else (('%' :: '(' :: n ++ [')', c]) ++ ·) <$> scan env .text rest

/-- `StringExpression.Eval`. -/
def eval (expr : StringExpression) (s : String) : Except String String :=
  String.mk <$> scan expr.env .text s.toList

/-- Text without `%` is plain text. -/
theorem scan_text_of_no_percent (env : List (String × String)) (cs : List Char)
    (noPercent : '%' ∉ cs) : scan env .text cs = .ok cs := by
  induction cs with
  | nil => rfl
  | cons c rest ih =>
      simp only [List.mem_cons, not_or] at noPercent
      simp [scan, Ne.symm noPercent.1, ih noPercent.2]

theorem eval_of_no_percent (expr : StringExpression) (s : String) (noPercent : '%' ∉ s.toList) :
    expr.eval s = .ok s := by
  rw [eval, scan_text_of_no_percent _ _ noPercent]
  rfl

end StringExpression

end Supervisord

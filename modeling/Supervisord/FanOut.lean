import Mathlib.Data.List.Count
import Mathlib.Data.List.Dedup
import Mathlib.Data.List.Perm.Basic

/-!
# The fan-out operations of the RPC surface

`StartProcessGroup`, `StopProcessGroup` and `SignalProcessGroup` walk the processes
with `ForEachProcess` and act on those of one group; `StartAllProcesses`,
`StopAllProcesses` and `SignalAllProcesses` act on every process. The start and stop
handlers make one pass, issuing the operation and then reading the process's
descriptor; the signal handlers make two, signalling in the first and describing in
the second.

The Process Runtime is not among the sources. It is modelled from the spec (§6) by
what these handlers ask of it: a process handle with its name and group, the calls
`Start`, `Stop`, `Signal` and `Descriptor`, and `ForEachProcess`, which enumerates the
current processes in an order it does not fix. A handler is modelled by the calls it
makes, in order, its reply and its error; every call of `ForEachProcess` is given the
enumeration it produced. `fansOut_spec` gives, for every enumeration, each handler's
whole list of calls: one call of its operation and one read of the descriptor per
process it targets, and no call on any other process. It replies with one record per
target in enumeration order, each record naming its process.
-/

namespace Supervisord

/-- Modelled from the spec: a process handle, as the fan-out operations read it. -/
structure Process where
  name : String
  group : String
  deriving DecidableEq, Repr

/-- The part of `ProcessInfo` the model knows: the name and group of the process. The
other fields read the process's run state, which is outside the model. -/
structure ProcessInfo where
  name : String
  group : String
  deriving DecidableEq, Repr

/-- `getProcessInfo`. -/
def getProcessInfo (proc : Process) : ProcessInfo := ⟨proc.name, proc.group⟩

/-- The process a descriptor names: its name and group. -/
def ProcessInfo.label (info : ProcessInfo) : String × String := (info.name, info.group)

/-- The signals `toSignal` names. -/
inductive Signal where
  | hup
  | int
  | quit
  | kill
  | usr1
  | usr2
  | term
  deriving DecidableEq, Repr

/-- `toSignal`: the signal of a name, `SIGTERM` for every other name; the error is nil. -/
def toSignal (signalName : String) : Signal × Option String :=
  if signalName = "HUP" then (.hup, none)
  else if signalName = "INT" then (.int, none)
  else if signalName = "QUIT" then (.quit, none)
  else if signalName = "KILL" then (.kill, none)
  else if signalName = "USR1" then (.usr1, none)
  else if signalName = "USR2" then (.usr2, none)
  else (.term, none)

/-- A call of a handler on the Process Runtime: `proc.Start(wait)`, `proc.Stop(wait)`,
`proc.Signal(toSignal(...))`, or the reads of `getProcessInfo(proc)`. -/
inductive Call where
  | start (proc : Process) (wait : Bool)
  | stop (proc : Process) (wait : Bool)
  | signal (proc : Process) (sig : Signal × Option String)
  | describe (proc : Process)
  deriving DecidableEq, Repr

/-- Modelled from the spec: the outcome status of a task. The handlers only ever report
`SUCCESS`, a constant defined outside the sources. -/
inductive TaskStatus where
  | success
  deriving DecidableEq, Repr

/-- `RpcTaskResult`. -/
structure RpcTaskResult where
  name : String
  group : String
  status : TaskStatus
  description : String
  deriving DecidableEq, Repr

/-- The process a task result names: its name and group. -/
def RpcTaskResult.label (result : RpcTaskResult) : String × String := (result.name, result.group)

/-- What a handler does: the calls it makes on the Process Runtime, in order, the list it
appends to its reply, and the error it returns. -/
structure Handled (α : Type) where
  calls : List Call
  reply : List α
  err : Option String

namespace Supervisor

/-! ### The handlers -/

/-- One visit of a one-pass fan-out: a selected process gets `op`, and then its reply
record is read. -/
def fanOutStep {α : Type} (selected : Process → Bool) (op : Process → Call)
    (record : Process → α) (handled : Handled α) (proc : Process) : Handled α :=
  if selected proc then
    { handled with
      calls := handled.calls ++ [op proc, .describe proc]
      reply := handled.reply ++ [record proc] }
  else handled

/-- The body of the one-pass handlers, over the enumeration `procs`. -/
def fanOut {α : Type} (selected : Process → Bool) (op : Process → Call) (record : Process → α)
    (procs : List Process) : Handled α :=
  procs.foldl (fanOutStep selected op record) ⟨[], [], none⟩

/-- The reply record of `StartAllProcesses` and `StopAllProcesses`. -/
def taskResult (proc : Process) : RpcTaskResult :=
  let processInfo := getProcessInfo proc
  ⟨processInfo.name, processInfo.group, .success, "OK"⟩

/-- `StartProcessGroup`. -/
def startProcessGroup (procs : List Process) (name : String) (wait : Bool) :
    Handled ProcessInfo :=
  fanOut (·.group = name) (.start · wait) getProcessInfo procs

/-- `StopProcessGroup`. -/
def stopProcessGroup (procs : List Process) (name : String) (wait : Bool) :
    Handled ProcessInfo :=
  fanOut (·.group = name) (.stop · wait) getProcessInfo procs

/-- `StartAllProcesses`. -/
def startAllProcesses (procs : List Process) (wait : Bool) : Handled RpcTaskResult :=
  fanOut (fun _ => true) (.start · wait) taskResult procs

/-- `StopAllProcesses`. -/
def stopAllProcesses (procs : List Process) (wait : Bool) : Handled RpcTaskResult :=
  fanOut (fun _ => true) (.stop · wait) taskResult procs

/-- The body of the two-pass signal handlers: `first` and `second` are the enumerations
of the two calls of `ForEachProcess`. -/
def signalFanOut (selected : Process → Bool) (first second : List Process)
    (signalName : String) : Handled ProcessInfo :=
  let signalled := first.foldl
    (fun calls proc => if selected proc then calls ++ [.signal proc (toSignal signalName)]
      else calls) []
  second.foldl
    (fun handled proc =>
      if selected proc then
        { handled with
          calls := handled.calls ++ [.describe proc]
          reply := handled.reply ++ [getProcessInfo proc] }
      else handled)
    ⟨signalled, [], none⟩

/-- `SignalProcessGroup`. -/
def signalProcessGroup (first second : List Process) (name signalName : String) :
    Handled ProcessInfo :=
  signalFanOut (·.group = name) first second signalName

/-- `SignalAllProcesses`. -/
def signalAllProcesses (first second : List Process) (signalName : String) :
    Handled ProcessInfo :=
  signalFanOut (fun _ => true) first second signalName

/-! ### What the handlers do -/

theorem foldl_fanOutStep {α : Type} (selected : Process → Bool) (op : Process → Call)
    (record : Process → α) (procs : List Process) (handled : Handled α) :
    procs.foldl (fanOutStep selected op record) handled =
      ⟨handled.calls ++ (procs.filter selected).flatMap (fun proc => [op proc, .describe proc]),
        handled.reply ++ (procs.filter selected).map record, handled.err⟩ := by
  induction procs generalizing handled with
  | nil => simp
  | cons proc rest ih =>
      rw [List.foldl_cons, ih]
      unfold fanOutStep
      split <;> simp_all [List.filter_cons]

theorem fanOut_eq {α : Type} (selected : Process → Bool) (op : Process → Call)
    (record : Process → α) (procs : List Process) :
    fanOut selected op record procs =
      ⟨(procs.filter selected).flatMap (fun proc => [op proc, .describe proc]),
        (procs.filter selected).map record, none⟩ := by
  simp [fanOut, foldl_fanOutStep]

theorem signalFanOut_eq (selected : Process → Bool) (first second : List Process)
    (signalName : String) :
    signalFanOut selected first second signalName =
      ⟨(first.filter selected).map (fun proc => .signal proc (toSignal signalName)) ++
          (second.filter selected).map .describe,
        (second.filter selected).map getProcessInfo, none⟩ := by
  have signals (procs : List Process) (calls : List Call) :
      procs.foldl (fun calls proc =>
          if selected proc then calls ++ [.signal proc (toSignal signalName)] else calls) calls =
        calls ++ (procs.filter selected).map (fun proc => .signal proc (toSignal signalName)) := by
    induction procs generalizing calls with
    | nil => simp
    | cons proc rest ih =>
        rw [List.foldl_cons, ih]
        split <;> simp_all [List.filter_cons]
  have describes (procs : List Process) (handled : Handled ProcessInfo) :
      procs.foldl (fun handled proc =>
          if selected proc then
            { handled with
              calls := handled.calls ++ [.describe proc]
              reply := handled.reply ++ [getProcessInfo proc] }
          else handled) handled =
        ⟨handled.calls ++ (procs.filter selected).map .describe,
          handled.reply ++ (procs.filter selected).map getProcessInfo, handled.err⟩ := by
    induction procs generalizing handled with
    | nil => simp
    | cons proc rest ih =>
        rw [List.foldl_cons, ih]
        split <;> simp_all [List.filter_cons]
  simp [signalFanOut, signals, describes]

/-- An operation that tells processes apart and is no read of a descriptor is counted
once per occurrence of its process among the targets. -/
theorem count_flatMap_op (op : Process → Call) (inj : ∀ p q, op p = op q → p = q)
    (notDescribe : ∀ p q, op p ≠ .describe q) (targets : List Process) (proc : Process) :
    (targets.flatMap fun p => [op p, .describe p]).count (op proc) = targets.count proc := by
  induction targets with
  | nil => rfl
  | cons p rest ih =>
      rw [List.flatMap_cons, List.count_append, ih]
      by_cases hit : p = proc
      · subst hit
        simp [List.count_cons, (notDescribe p p).symm, Nat.add_comm]
      · have other : op p ≠ op proc := fun same => hit (inj p proc same)
        simp [List.count_cons, hit, other, (notDescribe proc p).symm]

/-- Calls made in two passes, the operations first and the reads after them, are the calls
of one pass that follows each operation with its read. -/
theorem perm_flatMap_pair (op read : Process → Call) (procs : List Process) :
    (procs.flatMap fun proc => [op proc, read proc]).Perm (procs.map op ++ procs.map read) := by
  induction procs with
  | nil => exact .nil
  | cons proc rest ih =>
      simp only [List.flatMap_cons, List.map_cons, List.cons_append, List.singleton_append]
      exact ((ih.cons (read proc)).trans List.perm_middle.symm).cons (op proc)

/-- A handler's effect as a fan-out over `targets`: it makes the calls `calls`, which are
one `op` and one read of the descriptor for each target and no other call, so `op` reaches
each target exactly once and no other process; and it returns, with no error, the records
of `replied`, which lists each target once, each record naming its process by `label`. -/
structure FansOut {α : Type} (op : Process → Call) (record : Process → α)
    (label : α → String × String) (targets replied : List Process) (calls : List Call)
    (handled : Handled α) : Prop where
  made : handled.calls = calls
  only_targets : calls.Perm (targets.flatMap fun proc => [op proc, .describe proc])
  once : ∀ proc, calls.count (op proc) = if proc ∈ targets then 1 else 0
  replies : handled.reply = replied.map record
  named : handled.reply.map label = replied.map fun proc => (proc.name, proc.group)
  replied_targets : replied.Perm targets
  replied_nodup : replied.Nodup
  no_error : handled.err = none

theorem fansOut_fanOut {α : Type} (selected : Process → Bool) (op : Process → Call)
    (record : Process → α) (label : α → String × String)
    (labelled : ∀ proc, label (record proc) = (proc.name, proc.group))
    (inj : ∀ p q, op p = op q → p = q) (notDescribe : ∀ p q, op p ≠ .describe q)
    {procs : List Process} (nodup : procs.Nodup) :
    FansOut op record label (procs.filter selected) (procs.filter selected)
      ((procs.filter selected).flatMap fun proc => [op proc, .describe proc])
      (fanOut selected op record procs) where
  made := by rw [fanOut_eq]
  only_targets := .refl _
  once proc := by
    rw [count_flatMap_op op inj notDescribe, List.count_eq_of_nodup (nodup.filter _)]
  replies := by rw [fanOut_eq]
  named := by simp only [fanOut_eq, List.map_map, Function.comp_def, labelled]
  replied_targets := .refl _
  replied_nodup := nodup.filter _
  no_error := by rw [fanOut_eq]

theorem fansOut_signalFanOut (selected : Process → Bool) {first second : List Process}
    (nodup : first.Nodup) (same : first.Perm second) (signalName : String) :
    FansOut (fun proc => .signal proc (toSignal signalName)) getProcessInfo ProcessInfo.label
      (first.filter selected) (second.filter selected)
      ((first.filter selected).map (fun proc => .signal proc (toSignal signalName)) ++
        (second.filter selected).map .describe)
      (signalFanOut selected first second signalName) where
  made := by rw [signalFanOut_eq]
  only_targets := (((same.filter selected).map _).append_left _).symm.trans
    (perm_flatMap_pair _ _ _).symm
  once proc := by
    have inj : Function.Injective fun proc => Call.signal proc (toSignal signalName) :=
      fun p q same => (Call.signal.inj same).1
    rw [List.count_append, List.count_map_of_injective _ _ inj,
      List.count_eq_of_nodup (nodup.filter _)]
    simp [List.count_eq_zero]
  replies := by rw [signalFanOut_eq]
  named := by simp only [signalFanOut_eq, List.map_map, Function.comp_def]; rfl
  replied_targets := (same.filter selected).symm
  replied_nodup := (same.nodup_iff.mp nodup).filter _
  no_error := by rw [signalFanOut_eq]

/-- Each fan-out handler makes one call of its operation and one read of the descriptor
for each process it targets, and no other call, and replies, with no error, with one
record per target naming that process, in the order of the enumeration it replies from:
the targets are the processes of the group for the group handlers and every process for
the others. The one-pass handlers follow each operation with its read; the signal
handlers signal every target first. `first` and `second` enumerate the same processes,
each once. -/
theorem fansOut_spec {first second : List Process} (nodup : first.Nodup)
    (same : first.Perm second) (name : String) (wait : Bool) (signalName : String) :
    FansOut (.start · wait) getProcessInfo ProcessInfo.label (first.filter (·.group = name))
        (first.filter (·.group = name))
        ((first.filter (·.group = name)).flatMap fun proc => [.start proc wait, .describe proc])
        (startProcessGroup first name wait) ∧
      FansOut (.stop · wait) getProcessInfo ProcessInfo.label (first.filter (·.group = name))
        (first.filter (·.group = name))
        ((first.filter (·.group = name)).flatMap fun proc => [.stop proc wait, .describe proc])
        (stopProcessGroup first name wait) ∧
      FansOut (fun proc => .signal proc (toSignal signalName)) getProcessInfo ProcessInfo.label
        (first.filter (·.group = name)) (second.filter (·.group = name))
        ((first.filter (·.group = name)).map (fun proc => .signal proc (toSignal signalName)) ++
          (second.filter (·.group = name)).map .describe)
        (signalProcessGroup first second name signalName) ∧
      FansOut (.start · wait) taskResult RpcTaskResult.label first first
        (first.flatMap fun proc => [.start proc wait, .describe proc])
        (startAllProcesses first wait) ∧
      FansOut (.stop · wait) taskResult RpcTaskResult.label first first
        (first.flatMap fun proc => [.stop proc wait, .describe proc])
        (stopAllProcesses first wait) ∧
      FansOut (fun proc => .signal proc (toSignal signalName)) getProcessInfo ProcessInfo.label
        first second
        (first.map (fun proc => .signal proc (toSignal signalName)) ++ second.map .describe)
        (signalAllProcesses first second signalName) := by
  have startInj : ∀ p q, Call.start p wait = .start q wait → p = q :=
    fun p q same => (Call.start.inj same).1
  have stopInj : ∀ p q, Call.stop p wait = .stop q wait → p = q :=
    fun p q same => (Call.stop.inj same).1
  refine ⟨fansOut_fanOut _ _ _ _ (fun _ => rfl) startInj (fun _ _ => Call.noConfusion) nodup,
    fansOut_fanOut _ _ _ _ (fun _ => rfl) stopInj (fun _ _ => Call.noConfusion) nodup,
    fansOut_signalFanOut _ nodup same signalName, ?_, ?_, ?_⟩
  · simpa using fansOut_fanOut (fun _ => true) _ taskResult RpcTaskResult.label
      (fun _ => rfl) startInj (fun _ _ => Call.noConfusion) nodup
  · simpa using fansOut_fanOut (fun _ => true) _ taskResult RpcTaskResult.label
      (fun _ => rfl) stopInj (fun _ _ => Call.noConfusion) nodup
  · simpa using fansOut_signalFanOut (fun _ => true) nodup same signalName

/-- `fansOut_spec` where the second walk of `SignalProcessGroup` meets the two processes in
the other order. -/
theorem fansOut_spec_reordered :
    let first : List Process := [⟨"web", "www"⟩, ⟨"db", "data"⟩]
    let second : List Process := [⟨"db", "data"⟩, ⟨"web", "www"⟩]
    first.Nodup ∧ first.Perm second ∧
      FansOut (fun proc => .signal proc (toSignal "HUP")) getProcessInfo ProcessInfo.label
        (first.filter (·.group = "www")) (second.filter (·.group = "www"))
        ((first.filter (·.group = "www")).map (fun proc => .signal proc (toSignal "HUP")) ++
          (second.filter (·.group = "www")).map .describe)
        (signalProcessGroup first second "www" "HUP") :=
  have nodup : ([⟨"web", "www"⟩, ⟨"db", "data"⟩] : List Process).Nodup := by decide
  have same : ([⟨"web", "www"⟩, ⟨"db", "data"⟩] : List Process).Perm
      [⟨"db", "data"⟩, ⟨"web", "www"⟩] := List.Perm.swap _ _ []
  ⟨nodup, same, (fansOut_spec nodup same "www" true "HUP").2.2.1⟩

end Supervisor

end Supervisord

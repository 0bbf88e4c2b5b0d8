import Supervisord.GoStd

/-!
# The XML-RPC client

Every operation of `XMLRPCClient` sends one request through `post` and hands
`post` a callback, `processBody`, that stores the error it is given and, when
there is none, decodes the body. `post` picks the transport from the scheme of
the server URL and calls the callback only once it holds a response:
`processResponse` passes the body with no error for a 2xx status, and an empty
body with an error otherwise. Every earlier failure makes `post` return
without calling the callback at all.

The network is an oracle, `Network`: the answer of each call `post` makes
(parsing the URL, building the request, sending it, dialling the socket,
setting the deadline, writing, reading). Decoding an XML-RPC body belongs to
the gorilla `xml` package and is a parameter of each operation.

`ReloadConfig` decodes its reply differently: a streaming XML processor calls
a non-leaf callback at a boundary of an array's `data` element and a leaf
callback with the text of each value. The processor is not among the sources;
`reloadReplyEvents` gives the callbacks in the order the spec describes for the
reply `[added, changed, removed]` (§4.5). The two callbacks share a counter
`i` and a flag `hasValue`, and `ReloadDecoder.run_length_le_one` shows what they
compute for every sequence of callbacks.
-/

namespace Supervisord

/-- A response: its status code and its body. -/
structure Response where
  statusCode : Nat
  body : String
  deriving DecidableEq, Repr

/-- The request `createHTTPRequest` builds: the XML-RPC method with its
parameters, the URL, and the basic-auth credentials when both are set. -/
structure Request where
  method : String
  params : List String
  url : String
  basicAuth : Option (String × String)
  deriving DecidableEq, Repr

/-- The answer of each call `post` can make. -/
structure Network where
  /-- `url.Parse`: the scheme and the path, or `none` when the URL does not parse. -/
  parseURL : String → Option (String × String)
  /-- `http.NewRequest`. -/
  newRequest : Request → Bool
  /-- `http.DefaultClient.Do`. -/
  send : Request → Option Response
  /-- `net.Dial` of a socket path. -/
  dial : String → Bool
  /-- `conn.SetDeadline`. -/
  setDeadline : Bool
  /-- `req.Write(conn)`. -/
  write : Request → Bool
  /-- `http.ReadResponse`. -/
  read : Request → Option Response

/-- `XMLRPCClient`. -/
structure XMLRPCClient where
  serverurl : String
  user : String
  password : String
  timeout : Nat
  verbose : Bool

namespace XMLRPCClient

/-- `URL`. -/
def url (r : XMLRPCClient) : String := r.serverurl ++ "/RPC2"

/-- `createHTTPRequest`: the request, or `none` when `http.NewRequest` fails. -/
def createHTTPRequest (r : XMLRPCClient) (net : Network) (method : String) (params : List String)
    (url : String) : Option Request :=
  let req : Request := ⟨method, params, url,
    if 0 < r.user.length ∧ 0 < r.password.length then some (r.user, r.password) else none⟩
  if net.newRequest req then some req else none

/-- What `processResponse` passes to the callback: the body and the error. -/
def processResponse (resp : Response) : String × Option String :=
  if resp.statusCode / 100 ≠ 2 then
    ("", some ("Bad response with status code " ++ toString resp.statusCode))
  else (resp.body, none)

/-- `postInetHTTP`: the callback's arguments, or `none` when it is not called. -/
def postInetHTTP (r : XMLRPCClient) (net : Network) (method : String) (params : List String)
    (url : String) : Option (String × Option String) :=
  match r.createHTTPRequest net method params url with
  | none => none
  | some req => (net.send req).map processResponse

/-- `postUnixHTTP`. -/
def postUnixHTTP (r : XMLRPCClient) (net : Network) (method : String) (params : List String)
    (path : String) : Option (String × Option String) :=
  if !net.dial path then none
  else if 0 < r.timeout ∧ !net.setDeadline then none
  else
    match r.createHTTPRequest net method params "/RPC2" with
    | none => none
    | some req => if !net.write req then none else (net.read req).map processResponse

/-- `post`: the arguments `processBody` is called with, or `none` when it is not. -/
def post (r : XMLRPCClient) (net : Network) (method : String) (params : List String) :
    Option (String × Option String) :=
  match net.parseURL r.serverurl with
  | none => none
  | some (scheme, path) =>
      if scheme = "http" ∨ scheme = "https" then r.postInetHTTP net method params r.url
      else if scheme = "unix" then r.postUnixHTTP net method params path
      else none

/-- The operations' common shape: `err` starts nil, and the callback stores the
error it is given or, when there is none, the error of decoding the body. -/
def decodeCall {α : Type} (r : XMLRPCClient) (net : Network) (method : String)
    (params : List String) (decode : String → Except String α) (zero : α) : α × Option String :=
  match r.post net method params with
  | none => (zero, none)
  | some (_, some procError) => (zero, some procError)
  | some (body, none) =>
      match decode body with
      | .ok reply => (reply, none)
      | .error err => (zero, some err)

/-- The state change operations send only `start` and `stop`. -/
def changeCall {α : Type} (r : XMLRPCClient) (net : Network) (change method : String)
    (params : List String) (decode : String → Except String α) (zero : α) : α × Option String :=
  if !(change = "start" ∨ change = "stop") then (zero, some "Incorrect required state")
  else r.decodeCall net method params decode zero

/-- `GetVersion`. -/
def getVersion {α : Type} (r : XMLRPCClient) (net : Network) (decode : String → Except String α)
    (zero : α) : α × Option String :=
  r.decodeCall net "supervisor.getVersion" [] decode zero

/-- `GetAllProcessInfo`. -/
def getAllProcessInfo {α : Type} (r : XMLRPCClient) (net : Network)
    (decode : String → Except String α) (zero : α) : α × Option String :=
  r.decodeCall net "supervisor.getAllProcessInfo" [] decode zero

/-- `ChangeProcessState`. -/
def changeProcessState {α : Type} (r : XMLRPCClient) (net : Network) (change processName : String)
    (decode : String → Except String α) (zero : α) : α × Option String :=
  r.changeCall net change ("supervisor." ++ change ++ "Process") [processName] decode zero

/-- `ChangeAllProcessState`: it asks the server to wait. -/
def changeAllProcessState {α : Type} (r : XMLRPCClient) (net : Network) (change : String)
    (decode : String → Except String α) (zero : α) : α × Option String :=
  r.changeCall net change ("supervisor." ++ change ++ "AllProcesses") ["true"] decode zero

/-- `Shutdown`. -/
def shutdown {α : Type} (r : XMLRPCClient) (net : Network) (decode : String → Except String α)
    (zero : α) : α × Option String :=
  r.decodeCall net "supervisor.shutdown" [] decode zero

/-- `SignalProcess`. -/
def signalProcess {α : Type} (r : XMLRPCClient) (net : Network) (signal name : String)
    (decode : String → Except String α) (zero : α) : α × Option String :=
  r.decodeCall net "supervisor.signalProcess" [name, signal] decode zero

/-- `SignalAll`: it calls the same server method as `SignalProcess`. -/
def signalAll {α : Type} (r : XMLRPCClient) (net : Network) (signal : String)
    (decode : String → Except String α) (zero : α) : α × Option String :=
  r.decodeCall net "supervisor.signalProcess" [signal] decode zero

/-- `GetProcessInfo`. -/
def getProcessInfo {α : Type} (r : XMLRPCClient) (net : Network) (process : String)
    (decode : String → Except String α) (zero : α) : α × Option String :=
  r.decodeCall net "supervisor.getProcessInfo" [process] decode zero

/-- A nil error from an operation built on `decodeCall` means that `post` never
called back, or that it passed a body with no error and the body decoded. -/
theorem decodeCall_error_eq_none {α : Type} (r : XMLRPCClient) (net : Network) (method : String)
    (params : List String) (decode : String → Except String α) (zero : α)
    (nilError : (r.decodeCall net method params decode zero).2 = none) :
    r.post net method params = none ∨
      ∃ body reply, r.post net method params = some (body, none) ∧ decode body = .ok reply := by
  unfold decodeCall at nilError
  split at nilError
  · exact .inl ‹_›
  · cases nilError
  · next body found =>
      split at nilError
      · exact .inr ⟨body, _, found, ‹_›⟩
      · cases nilError

theorem processResponse_no_error {resp : Response} {body : String}
    (processed : processResponse resp = (body, none)) :
    resp.statusCode / 100 = 2 ∧ resp.body = body := by
  unfold processResponse at processed
  split at processed
  · cases processed
  · next ok =>
      cases processed
      exact ⟨not_not.mp ok, rfl⟩

theorem createHTTPRequest_method {r : XMLRPCClient} {net : Network} {method : String}
    {params : List String} {url : String} {req : Request}
    (made : r.createHTTPRequest net method params url = some req) : req.method = method := by
  simp only [createHTTPRequest, Option.ite_none_right_eq_some, Option.some.injEq] at made
  rw [← made.2]

/-- `postInetHTTP` calls back only with the response to the request it sent. -/
theorem postInetHTTP_eq_some {r : XMLRPCClient} {net : Network} {method : String}
    {params : List String} {url : String} {result : String × Option String}
    (called : r.postInetHTTP net method params url = some result) :
    ∃ req resp, r.createHTTPRequest net method params url = some req ∧ net.send req = some resp ∧
      processResponse resp = result := by
  unfold postInetHTTP at called
  split at called
  · cases called
  · next req made =>
      obtain ⟨resp, sent, processed⟩ := Option.map_eq_some'.mp called
      exact ⟨req, resp, made, sent, processed⟩

/-- `postUnixHTTP` calls back only with the response read for the request it wrote. -/
theorem postUnixHTTP_eq_some {r : XMLRPCClient} {net : Network} {method : String}
    {params : List String} {path : String} {result : String × Option String}
    (called : r.postUnixHTTP net method params path = some result) :
    ∃ req resp, r.createHTTPRequest net method params "/RPC2" = some req ∧
      net.read req = some resp ∧ processResponse resp = result := by
  unfold postUnixHTTP at called
  split at called
  · cases called
  · split at called
    · cases called
    · split at called
      · cases called
      · next req made =>
          split at called
          · cases called
          · obtain ⟨resp, got, processed⟩ := Option.map_eq_some'.mp called
            exact ⟨req, resp, made, got, processed⟩

/-- `post` passes no error only with the body of a 2xx response to the request it sent. -/
theorem post_no_error {r : XMLRPCClient} {net : Network} {method : String} {params : List String}
    {body : String} (passed : r.post net method params = some (body, none)) :
    ∃ req resp, (net.send req = some resp ∨ net.read req = some resp) ∧
      req.method = method ∧ resp.statusCode / 100 = 2 ∧ resp.body = body := by
  unfold post at passed
  split at passed
  · cases passed
  · split at passed
    · obtain ⟨req, resp, made, sent, processed⟩ := postInetHTTP_eq_some passed
      exact ⟨req, resp, .inl sent, createHTTPRequest_method made, processResponse_no_error processed⟩
    · split at passed
      · obtain ⟨req, resp, made, got, processed⟩ := postUnixHTTP_eq_some passed
        exact ⟨req, resp, .inr got, createHTTPRequest_method made, processResponse_no_error processed⟩
      · cases passed

/-- A client of a daemon that is not running: dialling its socket fails, so
`postUnixHTTP` returns before any response and `GetVersion` reports no error. -/
theorem getVersion_dial_failure_no_error :
    (XMLRPCClient.getVersion ⟨"unix:///var/run/supervisor.sock", "", "", 0, false⟩
      { parseURL := fun _ => some ("unix", "/var/run/supervisor.sock")
        newRequest := fun _ => true
        send := fun _ => none
        dial := fun _ => false
        setDeadline := true
        write := fun _ => true
        read := fun _ => none }
      (fun body => .ok body) "") = ("", none) := rfl

/-! ### `ReloadConfig` -/

/-- `types.ReloadConfigResult`. -/
structure ReloadConfigResult where
  addedGroup : List String
  changedGroup : List String
  removedGroup : List String
  deriving DecidableEq, Repr

/-- A call the XML processor makes while it reads a reply. -/
inductive XMLEvent where
  /-- The non-leaf callback, at a boundary of the array's `data` element. -/
  | nonLeaf
  /-- The leaf callback, with the text of a value. -/
  | leaf (value : String)
  deriving DecidableEq, Repr

/-- The variables the two callbacks of `ReloadConfig` share. -/
structure ReloadDecoder where
  i : Int
  hasValue : Bool
  reply : ReloadConfigResult
  deriving DecidableEq, Repr

namespace ReloadDecoder

/-- The variables before the reply is read: `i := -1`, `hasValue := false`, empty lists. -/
def init : ReloadDecoder := ⟨-1, false, ⟨[], [], []⟩⟩

/-- The non-leaf callback. -/
def nonLeaf (d : ReloadDecoder) : ReloadDecoder :=
  if d.hasValue then { d with hasValue := false } else { d with i := d.i + 1 }

/-- The leaf callback: `i` moves on, and the value goes to the list `i` selects. -/
def leaf (d : ReloadDecoder) (value : String) : ReloadDecoder :=
  let i := d.i + 1
  let reply := d.reply
  { i := i
    hasValue := true
    reply :=
      if i = 0 then { reply with addedGroup := reply.addedGroup ++ [value] }
      else if i = 1 then { reply with changedGroup := reply.changedGroup ++ [value] }
      else if i = 2 then { reply with removedGroup := reply.removedGroup ++ [value] }
      else reply }

/-- One callback. -/
def step (d : ReloadDecoder) : XMLEvent → ReloadDecoder
  | .nonLeaf => d.nonLeaf
  | .leaf value => d.leaf value

/-- The callbacks of a whole reply, in order. -/
def run (d : ReloadDecoder) (events : List XMLEvent) : ReloadDecoder := events.foldl step d

/-- What the shared counter allows: a list holds at most one name, and only
once `i` has reached its position. -/
structure Bounded (d : ReloadDecoder) : Prop where
  added : d.reply.addedGroup.length ≤ 1 ∧ (d.reply.addedGroup.length = 1 → 0 ≤ d.i)
  changed : d.reply.changedGroup.length ≤ 1 ∧ (d.reply.changedGroup.length = 1 → 1 ≤ d.i)
  removed : d.reply.removedGroup.length ≤ 1 ∧ (d.reply.removedGroup.length = 1 → 2 ≤ d.i)

theorem bounded_init : init.Bounded := by constructor <;> decide

theorem bounded_nonLeaf {d : ReloadDecoder} (bounded : d.Bounded) : d.nonLeaf.Bounded := by
  obtain ⟨added, changed, removed⟩ := bounded
  unfold nonLeaf
  split <;> constructor <;> dsimp only <;> omega

/-- The leaf callback advances `i` by one, so the list it writes to was still empty. -/
theorem bounded_leaf {d : ReloadDecoder} (value : String) (bounded : d.Bounded) :
    (d.leaf value).Bounded := by
  obtain ⟨added, changed, removed⟩ := bounded
  unfold leaf
  dsimp only
  split_ifs <;> constructor <;> simp only [List.length_append, List.length_singleton] <;> omega

theorem bounded_run {d : ReloadDecoder} (events : List XMLEvent) (bounded : d.Bounded) :
    (d.run events).Bounded := by
  induction events generalizing d with
  | nil => exact bounded
  | cons event rest ih =>
      apply ih
      cases event with
      | nonLeaf => exact bounded_nonLeaf bounded
      | leaf value => exact bounded_leaf value bounded

/-- Whatever the order and number of the callbacks, each of the three lists of
the decoded reply holds at most one group name. -/
theorem run_length_le_one (events : List XMLEvent) :
    (init.run events).reply.addedGroup.length ≤ 1 ∧
      (init.run events).reply.changedGroup.length ≤ 1 ∧
      (init.run events).reply.removedGroup.length ≤ 1 := by
  obtain ⟨added, changed, removed⟩ := bounded_run events bounded_init
  refine ⟨?_, ?_, ?_⟩ <;> omega

end ReloadDecoder

/--
Modelled from the spec: the XML processor that drives the callbacks is not among
the sources. For the reply `[added, changed, removed]`, one array of three
string arrays in fixed order (§4.5), it calls the leaf callback once per group
name in document order and the non-leaf callback at the end of each inner
array's `data`.
-/
def reloadReplyEvents (added changed removed : List String) : List XMLEvent :=
  [added, changed, removed].flatMap fun groups => groups.map .leaf ++ [.nonLeaf]

/-- `ReloadConfig`: `events` gives the callbacks the XML processor makes for a body. -/
def reloadConfig (r : XMLRPCClient) (net : Network) (events : String → List XMLEvent) :
    ReloadConfigResult × Option String :=
  match r.post net "supervisor.reloadConfig" [] with
  | none => (ReloadDecoder.init.reply, none)
  | some (_, some procError) => (ReloadDecoder.init.reply, some procError)
  | some (body, none) => ((ReloadDecoder.init.run (events body)).reply, none)

/-- The spec's round-trip example: `removed = ["g2", "g3"]` comes back as `["g2"]`,
the leaf callback having moved `i` past the last list before `g3`. -/
theorem reloadConfig_drops_second_removed :
    (ReloadDecoder.init.run (reloadReplyEvents ["g1"] [] ["g2", "g3"])).reply =
      ⟨["g1"], [], ["g2"]⟩ := by decide

/-! ### What `ReloadConfig` decodes

The leaf callback moves the shared counter on by one, and the non-leaf callback
moves it only after an array with no value. Over a reply of string arrays the
counter therefore runs over the names of every array in document order, with one
blank for each empty array, and the reply keeps what its first three positions
hold. `Decodes` is that reading of a decoder between callbacks; the leaf and
non-leaf callbacks keep it, so it holds after every array of the reply.
-/

/-- The positions the counter takes over a reply of string arrays: the names of
each array in order, and a blank for an empty one. -/
def slots (arrays : List (List String)) : List (Option String) :=
  arrays.flatMap fun groups => if groups = [] then [none] else groups.map some

/-- The reply whose three lists hold what the first three positions name. -/
def ofSlots (slots : List (Option String)) : ReloadConfigResult :=
  ⟨slots[0]?.join.toList, slots[1]?.join.toList, slots[2]?.join.toList⟩

theorem getElem?_append_none_join (read : List (Option String)) (k : Nat) :
    (read ++ [none])[k]?.join = read[k]?.join := by
  rw [List.getElem?_append]
  split
  · rfl
  · rw [List.getElem?_eq_none (show read.length ≤ k by omega)]
    generalize k - read.length = j
    cases j <;> rfl

theorem ofSlots_append_none (read : List (Option String)) :
    ofSlots (read ++ [none]) = ofSlots read := by
  simp only [ofSlots, getElem?_append_none_join]

namespace ReloadDecoder

/-- The decoder has read the positions `read`: the counter stands on the last of
them and the reply holds what they name. -/
structure Decodes (d : ReloadDecoder) (read : List (Option String)) : Prop where
  counter : d.i = read.length - 1
  reply : d.reply = ofSlots read

theorem run_append (d : ReloadDecoder) (events more : List XMLEvent) :
    d.run (events ++ more) = (d.run events).run more := List.foldl_append _ _ _ _

theorem decodes_init : init.Decodes [] := ⟨rfl, rfl⟩

/-- A leaf is the next position, and the counter names the list it goes to. -/
theorem decodes_leaf {d : ReloadDecoder} {read : List (Option String)} (decodes : d.Decodes read)
    (value : String) : (d.leaf value).Decodes (read ++ [some value]) := by
  obtain ⟨counter, reply⟩ := decodes
  refine ⟨by simp only [leaf, List.length_append, List.length_singleton]; omega, ?_⟩
  rcases read with _ | ⟨a, _ | ⟨b, _ | ⟨c, rest⟩⟩⟩
  · simp [leaf, reply, ofSlots, counter]
  · simp [leaf, reply, ofSlots, counter]
  · simp [leaf, reply, ofSlots, counter]
  · simp only [List.length_cons] at counter
    simp only [leaf, reply]
    rw [if_neg (by omega), if_neg (by omega), if_neg (by omega)]
    simp only [List.cons_append, ofSlots, List.getElem?_cons_zero, List.getElem?_cons_succ]

/-- The non-leaf callback adds a blank position only after an empty array. -/
theorem decodes_nonLeaf {d : ReloadDecoder} {read : List (Option String)}
    (decodes : d.Decodes read) : d.nonLeaf.Decodes (if d.hasValue then read else read ++ [none]) := by
  obtain ⟨counter, reply⟩ := decodes
  unfold nonLeaf
  split
  · exact ⟨counter, reply⟩
  · exact ⟨by simp only [List.length_append, List.length_singleton]; omega,
      by rw [ofSlots_append_none]; exact reply⟩

theorem hasValue_nonLeaf (d : ReloadDecoder) : d.nonLeaf.hasValue = false := by
  unfold nonLeaf
  split <;> simp_all

theorem decodes_run_leaves {d : ReloadDecoder} {read : List (Option String)}
    (decodes : d.Decodes read) (names : List String) : (d.run (names.map .leaf)).Decodes (read ++ names.map some) := by
  induction names generalizing d read with
  | nil => simpa [run] using decodes
  | cons name rest ih => simpa using ih (decodes_leaf decodes name)

theorem hasValue_run_leaves (names : List String) :
    ∀ {d : ReloadDecoder}, d.hasValue = true → (d.run (names.map .leaf)).hasValue = true := by
  induction names with
  | nil => exact id
  | cons name rest ih => exact fun _ => ih rfl

/-- One string array: its leaves, then the non-leaf callback at the end of its `data`. -/
theorem decodes_run_array {d : ReloadDecoder} {read : List (Option String)}
    (decodes : d.Decodes read) (blank : d.hasValue = false) (groups : List String) :
    (d.run (groups.map .leaf ++ [.nonLeaf])).Decodes
        (read ++ if groups = [] then [none] else groups.map some) ∧
      (d.run (groups.map .leaf ++ [.nonLeaf])).hasValue = false := by
  rw [run_append]
  refine ⟨?_, hasValue_nonLeaf _⟩
  cases groups with
  | nil => simpa [run, blank] using decodes_nonLeaf decodes
  | cons name rest =>
      have full := @hasValue_run_leaves rest (d.leaf name) rfl
      have := decodes_nonLeaf (decodes_run_leaves decodes (name :: rest))
      rw [show d.run ((name :: rest).map .leaf) = (d.leaf name).run (rest.map .leaf) from rfl,
        full] at this
      simpa [run] using this

/-- A reply of string arrays, each closed by its non-leaf callback, read from a
decoder between two arrays. -/
theorem decodes_run_arrays (arrays : List (List String)) :
    ∀ {d : ReloadDecoder} {read : List (Option String)}, d.Decodes read → d.hasValue = false →
      (d.run (arrays.flatMap fun groups => groups.map .leaf ++ [.nonLeaf])).Decodes
          (read ++ slots arrays) ∧
        (d.run (arrays.flatMap fun groups => groups.map .leaf ++ [.nonLeaf])).hasValue = false := by
  induction arrays with
  | nil => exact fun decodes blank => ⟨by simpa [run, slots] using decodes, blank⟩
  | cons groups rest ih =>
      intro d read decodes blank
      obtain ⟨decodes', blank'⟩ := decodes_run_array decodes blank groups
      rw [List.flatMap_cons, run_append, slots, List.flatMap_cons, ← List.append_assoc]
      exact ih decodes' blank'

end ReloadDecoder

theorem decodes_reloadReplyEvents (added changed removed : List String) :
    (ReloadDecoder.init.run (reloadReplyEvents added changed removed)).Decodes
      (slots [added, changed, removed]) :=
  (ReloadDecoder.decodes_run_arrays _ ReloadDecoder.decodes_init rfl).1

/-- For every reply, the decoded lists are the first three positions of the
counter over the names of the three arrays, an empty array taking one blank position. -/
theorem reloadReplyEvents_decoded (added changed removed : List String) :
    (ReloadDecoder.init.run (reloadReplyEvents added changed removed)).reply =
      ofSlots (slots [added, changed, removed]) :=
  (decodes_reloadReplyEvents added changed removed).reply

example : ofSlots (slots [["g1", "g2"], [], ["g3"]]) = ⟨["g1"], ["g2"], []⟩ := by decide

/-- A list of at most one name is its own position. -/
theorem slot_of_length_le_one {groups : List String} (short : groups.length ≤ 1) :
    (if groups = [] then [none] else groups.map some) = [groups.head?] ∧
      groups.head?.toList = groups := by
  rcases groups with _ | ⟨name, _ | ⟨next, rest⟩⟩
  · exact ⟨rfl, rfl⟩
  · exact ⟨rfl, rfl⟩
  · simp at short

/-- Decoding gives the reply back exactly when each of its lists holds at most one group. -/
theorem reloadConfig_round_trip {r : XMLRPCClient} {net : Network} {events : String → List XMLEvent}
    {body : String} {added changed removed : List String}
    (passed : r.post net "supervisor.reloadConfig" [] = some (body, none))
    (read : events body = reloadReplyEvents added changed removed) :
    r.reloadConfig net events = (⟨added, changed, removed⟩, none) ↔
      added.length ≤ 1 ∧ changed.length ≤ 1 ∧ removed.length ≤ 1 := by
  simp only [reloadConfig, passed, read, Prod.mk.injEq, and_true]
  constructor
  · intro decoded
    have bounded := ReloadDecoder.run_length_le_one (reloadReplyEvents added changed removed)
    rwa [decoded] at bounded
  · rintro ⟨shortAdded, shortChanged, shortRemoved⟩
    rw [(decodes_reloadReplyEvents added changed removed).reply]
    obtain ⟨sa, ta⟩ := slot_of_length_le_one shortAdded
    obtain ⟨sc, tc⟩ := slot_of_length_le_one shortChanged
    obtain ⟨sr, tr⟩ := slot_of_length_le_one shortRemoved
    simp only [slots, List.flatMap_cons, List.flatMap_nil, sa, sc, sr]
    show (⟨added.head?.toList, changed.head?.toList, removed.head?.toList⟩ :
      ReloadConfigResult) = _
    rw [ta, tc, tr]

theorem reloadConfig_round_trip_single :
    XMLRPCClient.reloadConfig ⟨"http://localhost:9001", "", "", 0, false⟩
        { parseURL := fun _ => some ("http", "")
          newRequest := fun _ => true
          send := fun _ => some ⟨200, "reply"⟩
          dial := fun _ => true
          setDeadline := true
          write := fun _ => true
          read := fun _ => none }
        (fun _ => reloadReplyEvents ["g1"] [] ["g2"]) = (⟨["g1"], [], ["g2"]⟩, none) ↔
      ["g1"].length ≤ 1 ∧ ([] : List String).length ≤ 1 ∧ ["g2"].length ≤ 1 :=
  reloadConfig_round_trip rfl rfl

end XMLRPCClient

end Supervisord

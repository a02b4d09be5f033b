import Mathlib.Data.List.Nodup
import Mathlib.Logic.Function.Basic
import VCBrain.Db.Models
import VCBrain.Foundation.Guarded

set_option relaxedAutoImplicit false
set_option autoImplicit false

/-!
# The registry of clients

A process owns one client for each provider and configuration. Requests take a client from the
registry or have a factory make one; a shutdown takes all clients out, closes them one after another
and puts those back that could not be closed. Requests and shutdowns interleave at every point where
a shutdown waits. This file shows that no client gets lost and determines when a request is given a
client that a shutdown has tried to close.

## Main definitions

* `ClientRegistry.get`, `ClientRegistry.beginClose`, `ClientRegistry.finishClose` — the parts of the
  registry's methods that run in one go.
* `RegistryState.step` — any number of calls of `get_openai`, `get_tavily` and `close`.
* `RegistrySound` — no client is leaked, or closed twice in one pass.
* `Unclosed`, `TakesUnclosed` — a request is not given a client on which `close` was called, and the
  condition for that.

## Main results

* `registrySound_of_history` — every history is sound.
* `factory_kept` — the factory of a registered client is kept, so its identity is not used again.
* `unclosed_history_iff` — requests are not given such clients exactly if they meet the condition.

## Design

The lock of the registry is never held while a task waits, so it is free whenever it is asked for,
and what is done under it is one step that is not interrupted. A step that closes a client is split
in two, the call and its outcome, which may be an exception or a cancellation. What a factory
returns is an input. Objects are their identities; `None` is one of them. The registry knows nothing
of what was created, of the calls of `close`, and of the keys that were put back; the state keeps
lists of them beside it.
-/

namespace VCBrain

/-! ## The registry -/

/-- The identity of a Python object. -/
abbrev ObjectId := ℕ

/-- Which objects have a `close` method; `None` has none. -/
structure PyObjects where
  noneId : ObjectId
  closable : ObjectId → Bool
  not_closable_none : closable noneId = false

/-- An exception, by its text; a cancelled task raises one too. -/
inductive PyException where
  | error (text : Str)
  | cancelled
deriving DecidableEq

/-- The provider a client talks to. -/
inductive ClientProvider where
  | openai
  | tavily
deriving DecidableEq

/-- `_ClientKey`. -/
structure ClientKey where
  provider : ClientProvider
  factory : ObjectId
  apiKey : Str
  baseUrl : Option Str
  organization : Option Str
deriving DecidableEq

/-- The key under which the registry keeps a factory. -/
def ClientKey.factoryId (key : ClientKey) : ClientProvider × ObjectId := (key.provider, key.factory)

/-- `_ClientRegistry`: the lock is left out. -/
structure ClientRegistry where
  clients : List (ClientKey × ObjectId) := []
  factories : List (ClientProvider × ObjectId) := []
  closing : Bool := false
  closeFinished : Option ℕ := none

/-- Why a request is not given a client. -/
inductive ClientError where
  | closing (provider : ClientProvider)
  | factory (e : PyException)
deriving DecidableEq

/-- The text of the error that is raised while the registry closes. -/
def ClientError.text : ClientError → Option Str
  | closing .openai => some "OpenAI client registry is closing"
  | closing .tavily => some "Tavily client registry is closing"
  | factory (.error text) => some text
  | factory .cancelled => none

/-- `value or None` for a text. -/
def orNone (value : Option Str) : Option Str := if filled value then value else none

/-- A request for a client. -/
inductive ClientRequest where
  | openai (factory : ObjectId) (apiKey : Str) (baseUrl organization : Option Str)
  | tavily (factory : ObjectId) (apiKey : Str) (apiBaseUrl : Option Str)

/-- The key of a request. -/
def ClientRequest.key : ClientRequest → ClientKey
  | .openai factory apiKey baseUrl organization =>
    ⟨.openai, factory, apiKey, orNone baseUrl, orNone organization⟩
  | .tavily factory apiKey apiBaseUrl => ⟨.tavily, factory, apiKey, orNone apiBaseUrl, none⟩

/-- `d[key] = value` on the clients. -/
def setClient (clients : List (ClientKey × ObjectId)) (key : ClientKey) (client : ObjectId) :
    List (ClientKey × ObjectId) :=
  if key ∈ clients.map Prod.fst then
    clients.map fun entry => if entry.1 = key then (key, client) else entry
  else clients ++ [(key, client)]

/-- `setdefault` on the factories, which are their identities. -/
def keepFactory (factories : List (ClientProvider × ObjectId)) (id : ClientProvider × ObjectId) :
    List (ClientProvider × ObjectId) :=
  if id ∈ factories then factories else factories ++ [id]

namespace ClientRegistry

variable (o : PyObjects)

/-- The client of a key, unless it is `None`. -/
def existing (r : ClientRegistry) (key : ClientKey) : Option ObjectId :=
  (r.clients.lookup key).filter fun client => client ≠ o.noneId

/-- `get_openai` and `get_tavily`: the answer, and the registry they leave. -/
def get (r : ClientRegistry) (req : ClientRequest) (made : Except PyException ObjectId) :
    Except ClientError ObjectId × ClientRegistry :=
  if r.closing then (.error (.closing req.key.provider), r)
  else match r.existing o req.key with
    | some client => (.ok client, r)
    | none =>
      match made with
      | .error e => (.error (.factory e), r)
      | .ok client =>
        (.ok client, { r with
          clients := setClient r.clients req.key client
          factories := keepFactory r.factories req.key.factoryId })

end ClientRegistry

/-- A shutdown that owns the clients it has taken out: those it has not come to, the one whose
`close` it waits for, those on which it has called `close`, and those that could not be closed. -/
structure ClosePass where
  event : ℕ
  entries : List (ClientKey × ObjectId)
  factories : List (ClientProvider × ObjectId)
  left : List ObjectId
  running : Option ObjectId := none
  started : List ObjectId := []
  failed : List ObjectId := []
  firstError : Option PyException := none

/-- A call of `close`. -/
inductive CloseCall where
  /-- Another call is closing the clients. -/
  | waiting (event : ℕ)
  | closing (pass : ClosePass)
  | returned (error : Option PyException)

/-- The pass that a call owns. -/
def CloseCall.pass? : CloseCall → Option ClosePass
  | .closing pass => some pass
  | _ => none

namespace ClosePass

/-- The entries of the clients that could not be closed. -/
def keptEntries (pass : ClosePass) : List (ClientKey × ObjectId) :=
  pass.entries.filter fun entry => entry.2 ∈ pass.failed

/-- The factories of these entries. -/
def keptFactories (pass : ClosePass) : List (ClientProvider × ObjectId) :=
  pass.factories.filter fun id => id ∈ pass.keptEntries.map fun entry => entry.1.factoryId

end ClosePass

namespace ClientRegistry

/-- `close` up to the first client: this call owns the clients, or it waits for the one that
does. -/
def beginClose (r : ClientRegistry) (event : ℕ) : CloseCall × ClientRegistry :=
  if r.closing then
    match r.closeFinished with
    | some finished => (.waiting finished, r)
    | none => (.returned none, r)
  else
    (.closing
      { event := event, entries := r.clients, factories := r.factories
        left := (r.clients.map Prod.snd).eraseDups },
      { clients := [], factories := [], closing := true, closeFinished := some event })

/-- `close` after the last client. -/
def finishClose (r : ClientRegistry) (pass : ClosePass) : ClientRegistry where
  clients := if pass.failed = [] then r.clients else pass.keptEntries
  factories := if pass.failed = [] then r.factories else pass.keptFactories
  closing := false
  closeFinished := none

end ClientRegistry

/-! ## Histories -/

/-- The registry, the calls of `close`, and the events that are set; and the clients that factories
have returned, those on which `close` was called, those it closed, and the keys that the last
shutdown put back. -/
structure RegistryState where
  registry : ClientRegistry := {}
  calls : ℕ → Option CloseCall := fun _ => none
  events : ℕ := 0
  finished : List ℕ := []
  created : List ObjectId := []
  started : List ObjectId := []
  closed : List ObjectId := []
  kept : List ClientKey := []

/-- A request for a client; or a call of `close` begins, comes to its next client, learns what has
become of closing it, comes to its end, is woken up by the end of another one, or is cancelled while
it waits for that. -/
inductive RegistryEvent where
  | get (req : ClientRequest) (made : Except PyException ObjectId)
  | close (call : ℕ)
  | next (call : ℕ)
  | outcome (call : ℕ) (error : Option PyException)
  | finish (call : ℕ)
  | wake (call : ℕ)
  | cancel (call : ℕ)

/-- The pass goes on to its next client, and calls `close` if there is such a method. -/
def ClosePass.next (o : PyObjects) (pass : ClosePass) : Option ClosePass :=
  match pass.running, pass.left with
  | none, client :: left =>
    if o.closable client then
      some { pass with left := left, running := some client, started := pass.started ++ [client] }
    else some { pass with left := left }
  | _, _ => none

/-- The `close` of the client returns or raises. -/
def ClosePass.outcome (pass : ClosePass) (client : ObjectId) (error : Option PyException) :
    ClosePass :=
  match error with
  | none => { pass with running := none }
  | some e =>
    { pass with
      running := none, failed := pass.failed ++ [client],
      firstError := pass.firstError.or (some e) }

namespace RegistryState

variable (o : PyObjects)

/-- The pass of a call, if it owns one. -/
def pass? (st : RegistryState) (call : ℕ) : Option ClosePass :=
  (st.calls call).bind CloseCall.pass?

/-- The state in which a call of `close` has got to a point. -/
def putCall (st : RegistryState) (call : ℕ) (c : CloseCall) : RegistryState :=
  { st with calls := Function.update st.calls call (some c) }

/-- A request. -/
def getClient (st : RegistryState) (req : ClientRequest) (made : Except PyException ObjectId) :
    RegistryState :=
  { st with
    registry := (st.registry.get o req made).2
    created :=
      if st.registry.closing = false ∧ st.registry.existing o req.key = none then
        st.created ++ made.toOption.toList
      else st.created }

/-- A call of `close` begins. -/
def beginCall (st : RegistryState) (call : ℕ) : RegistryState :=
  { st.putCall call (st.registry.beginClose st.events).1 with
    registry := (st.registry.beginClose st.events).2
    events := st.events + 1
    kept := if st.registry.closing then st.kept else [] }

/-- A call comes to its end. -/
def finishCall (st : RegistryState) (call : ℕ) (pass : ClosePass) : RegistryState :=
  { st.putCall call (.returned pass.firstError) with
    registry := st.registry.finishClose pass
    finished := pass.event :: st.finished
    kept := if pass.failed = [] then st.kept else pass.keptEntries.map Prod.fst }

/-- The state after an event, unless it is not possible. -/
def step (st : RegistryState) : RegistryEvent → Option RegistryState
  | .get req made => some (st.getClient o req made)
  | .close call => if (st.calls call).isSome then none else some (st.beginCall call)
  | .next call => (st.pass? call).bind fun pass => (pass.next o).map fun pass' =>
      { st.putCall call (.closing pass') with started := st.started ++ pass'.running.toList }
  | .outcome call error => (st.pass? call).bind fun pass => pass.running.map fun client =>
      { st.putCall call (.closing (pass.outcome client error)) with
        closed := if error = none then st.closed ++ [client] else st.closed }
  | .finish call => (st.pass? call).bind fun pass =>
      if pass.running = none ∧ pass.left = [] then some (st.finishCall call pass) else none
  | .wake call =>
    match st.calls call with
    | some (.waiting event) =>
      if event ∈ st.finished then some (st.putCall call (.returned none)) else none
    | _ => none
  | .cancel call =>
    match st.calls call with
    | some (.waiting _) => some (st.putCall call (.returned (some .cancelled)))
    | _ => none

end RegistryState

/-- The pass has not got rid of the client: it has not come to it, waits for it, or will put it
back. -/
def ClosePass.Owes (pass : ClosePass) (client : ObjectId) : Prop :=
  client ∈ pass.left ∨ pass.running = some client ∨ client ∈ pass.failed

/-- No client is leaked or closed twice in one pass, there is one pass at a time, and no client is
registered meanwhile. -/
structure RegistrySound (o : PyObjects) (st : RegistryState) : Prop where
  not_leaked : ∀ client ∈ st.created, o.closable client = true →
    (∃ key, (key, client) ∈ st.registry.clients) ∨
      (∃ call pass, st.pass? call = some pass ∧ pass.Owes client) ∨ client ∈ st.closed
  once : ∀ call pass, st.pass? call = some pass → pass.started.Nodup
  one_pass : ∀ call call' pass pass', st.pass? call = some pass → st.pass? call' = some pass' →
    call = call'
  none_registered : ∀ call pass, st.pass? call = some pass → st.registry.clients = []

/-- A request is not given a client on which `close` was called. -/
def Unclosed (o : PyObjects) (st : RegistryState) : RegistryEvent → Prop
  | .get req made => ∀ client, (st.registry.get o req made).1 = .ok client → client ∉ st.started
  | _ => True

/-- The condition on a request while the registry is open: its key is not one that the last shutdown
has put back, and if there is no client yet, the factory does not return one on which `close` was
called. -/
def TakesUnclosed (o : PyObjects) (st : RegistryState) : RegistryEvent → Prop
  | .get req made => st.registry.closing = false → req.key ∉ st.kept ∧
      (st.registry.existing o req.key = none → ∀ client, made = .ok client → client ∉ st.started)
  | _ => True

/-! ## The clients of the registry -/

section Clients

variable {clients : List (ClientKey × ObjectId)} {key : ClientKey} {client : ObjectId}

/-- Without its repetitions a list has none. -/
lemma nodup_eraseDups {α : Type*} [DecidableEq α] (l : List α) : l.eraseDups.Nodup := by
  induction hn : l.length using Nat.strong_induction_on generalizing l with
  | _ n ih =>
    cases l with
    | nil => simp
    | cons a l =>
      rw [List.eraseDups_cons, List.nodup_cons, List.mem_eraseDups]
      refine ⟨by simp, ih _ ?_ _ rfl⟩
      rw [← hn, List.length_cons]
      exact Nat.lt_succ_of_le (List.length_filter_le _ _)

/-- The entries after an assignment to a key that has no client, or has `None`. -/
lemma mem_setClient {entry : ClientKey × ObjectId} (h : entry ∈ setClient clients key client) :
    entry = (key, client) ∨ entry ∈ clients ∧ entry.1 ≠ key := by
  unfold setClient at h
  split_ifs at h with hkey
  · obtain ⟨entry', hentry', rfl⟩ := List.mem_map.mp h
    split_ifs with heq
    · exact Or.inl rfl
    · exact Or.inr ⟨hentry', heq⟩
  · rw [List.mem_append, List.mem_singleton] at h
    rcases h with h | h
    · refine Or.inr ⟨h, fun heq => hkey ?_⟩
      exact heq ▸ List.mem_map_of_mem h
    · exact Or.inl h

/-- The new entry is there, and so are those of other keys. -/
lemma mem_setClient_of {entry : ClientKey × ObjectId}
    (h : entry = (key, client) ∨ entry ∈ clients ∧ entry.1 ≠ key) :
    entry ∈ setClient clients key client := by
  unfold setClient
  split_ifs with hkey
  · rw [List.mem_map]
    rcases h with rfl | ⟨hentry, hne⟩
    · obtain ⟨entry', hentry', heq⟩ := List.mem_map.mp hkey
      exact ⟨entry', hentry', by rw [if_pos heq]⟩
    · exact ⟨entry, hentry, by rw [if_neg hne]⟩
  · rw [List.mem_append, List.mem_singleton]
    rcases h with rfl | ⟨hentry, -⟩
    · exact Or.inr rfl
    · exact Or.inl hentry

/-- An assignment keeps the keys distinct. -/
lemma nodup_setClient (h : (clients.map Prod.fst).Nodup) :
    ((setClient clients key client).map Prod.fst).Nodup := by
  unfold setClient
  split_ifs with hkey
  · have hsame : (clients.map fun entry => if entry.1 = key then (key, client) else entry).map
        Prod.fst = clients.map Prod.fst := by
      rw [List.map_map]
      apply List.map_congr_left
      intro entry _
      dsimp only [Function.comp_apply]
      split_ifs with heq
      · exact heq.symm
      · rfl
    rwa [hsame]
  · simpa using List.Nodup.concat hkey h

/-- The keys before an assignment are keys after it. -/
lemma mem_keys_setClient {k : ClientKey} (h : k ∈ clients.map Prod.fst) :
    k ∈ (setClient clients key client).map Prod.fst := by
  obtain ⟨entry, hentry, rfl⟩ := List.mem_map.mp h
  by_cases heq : entry.1 = key
  · exact List.mem_map.mpr ⟨(key, client), mem_setClient_of (Or.inl rfl), heq.symm⟩
  · exact List.mem_map_of_mem (mem_setClient_of (Or.inr ⟨hentry, heq⟩))

variable {o : PyObjects} {r : ClientRegistry}

/-- A client that is found is registered under the key. -/
lemma existing_eq_some_iff (hkeys : (r.clients.map Prod.fst).Nodup) :
    r.existing o key = some client ↔ (key, client) ∈ r.clients ∧ client ≠ o.noneId := by
  unfold ClientRegistry.existing
  rw [Option.filter_eq_some_iff, lookup_eq_some_iff_mem hkeys, decide_eq_true_eq]

end Clients

/-! ## The invariant -/

/-- What holds of a pass, given the clients that are closed and those on which `close` was
called. -/
structure PassInv (o : PyObjects) (closed started : List ObjectId) (pass : ClosePass) : Prop where
  nodup : (pass.started ++ pass.left).Nodup
  keys : (pass.entries.map Prod.fst).Nodup
  /-- Who is in the entries and has a `close` method is owed or closed. -/
  owed : ∀ entry ∈ pass.entries, o.closable entry.2 = true →
    pass.Owes entry.2 ∨ entry.2 ∈ closed
  /-- Who is owed is in the entries. -/
  owns : ∀ client, pass.Owes client → ∃ key, (key, client) ∈ pass.entries
  running_started : ∀ client, pass.running = some client → client ∈ started
  failed_started : ∀ client ∈ pass.failed, client ∈ started
  factories : ∀ entry ∈ pass.entries, entry.1.factoryId ∈ pass.factories

/-- What holds of the registry after every step. -/
structure RegistryInv (o : PyObjects) (st : RegistryState) : Prop where
  closing_iff : st.registry.closing = true ↔ ∃ call pass, st.pass? call = some pass
  one_pass : ∀ call call' pass pass', st.pass? call = some pass → st.pass? call' = some pass' →
    call = call'
  empty : st.registry.closing = true → st.registry.clients = []
  keys : (st.registry.clients.map Prod.fst).Nodup
  factories : ∀ entry ∈ st.registry.clients, entry.1.factoryId ∈ st.registry.factories
  passes : ∀ call pass, st.pass? call = some pass → PassInv o st.closed st.started pass
  created : ∀ client ∈ st.created, o.closable client = true →
    (∃ key, (key, client) ∈ st.registry.clients) ∨
      (∃ call pass, st.pass? call = some pass ∧ pass.Owes client) ∨ client ∈ st.closed
  closable : ∀ client ∈ st.started, o.closable client = true

section Step

variable {o : PyObjects} {st st' : RegistryState} {call : ℕ} {pass pass' : ClosePass}

/-- The invariant says that no client is leaked. -/
lemma RegistryInv.sound (h : RegistryInv o st) : RegistrySound o st where
  not_leaked := h.created
  once call pass hpass := (List.nodup_append.mp (h.passes call pass hpass).nodup).1
  one_pass := h.one_pass
  none_registered call pass hpass := h.empty (h.closing_iff.mpr ⟨call, pass, hpass⟩)

/-- The passes after one call has got to another point. -/
lemma pass?_update {c : CloseCall} (h : st'.calls = Function.update st.calls call (some c))
    (other : ℕ) : st'.pass? other = if other = call then c.pass? else st.pass? other := by
  unfold RegistryState.pass?
  rw [h]
  by_cases heq : other = call
  · rw [heq, Function.update_self, if_pos rfl, Option.bind_some]
  · rw [Function.update_of_ne heq, if_neg heq]

/-- A step that changes neither the registry nor the passes keeps the invariant. -/
lemma RegistryInv.of_same (h : RegistryInv o st) (hregistry : st'.registry = st.registry)
    (hpass : ∀ call, st'.pass? call = st.pass? call) (hcreated : st'.created = st.created)
    (hstarted : st'.started = st.started) (hclosed : st'.closed = st.closed) :
    RegistryInv o st' := by
  constructor
  · rw [hregistry]
    simpa only [hpass] using h.closing_iff
  · simpa only [hpass] using h.one_pass
  · rw [hregistry]
    exact h.empty
  · rw [hregistry]
    exact h.keys
  · rw [hregistry]
    exact h.factories
  · rw [hclosed, hstarted]
    simpa only [hpass] using h.passes
  · rw [hregistry, hclosed, hcreated]
    simpa only [hpass] using h.created
  · rw [hstarted]
    exact h.closable

/-- The passes are the same if a call that owns none gets to a point where it owns none. -/
lemma pass?_eq_of_none {c : CloseCall} (h : st'.calls = Function.update st.calls call (some c))
    (hbefore : st.pass? call = none) (hafter : c.pass? = none) (other : ℕ) :
    st'.pass? other = st.pass? other := by
  rw [pass?_update h]
  split_ifs with heq
  · rw [heq, hbefore, hafter]
  · rfl

/-- The one pass goes on. -/
lemma RegistryInv.of_pass (h : RegistryInv o st) (hpass : st.pass? call = some pass)
    (hcalls : st'.calls = Function.update st.calls call (some (.closing pass')))
    (hregistry : st'.registry = st.registry) (hcreated : st'.created = st.created)
    (hclosed : st.closed ⊆ st'.closed)
    (hstarted : ∀ client ∈ st'.started, client ∈ st.started ∨ o.closable client = true)
    (hinv : PassInv o st'.closed st'.started pass')
    (howes : ∀ client, o.closable client = true → pass.Owes client →
      pass'.Owes client ∨ client ∈ st'.closed) : RegistryInv o st' := by
  have hself : st'.pass? call = some pass' := by
    rw [pass?_update hcalls, if_pos rfl]
    rfl
  have honly : ∀ other q, st'.pass? other = some q → other = call ∧ q = pass' := by
    intro other q hq
    by_cases heq : other = call
    · subst heq
      rw [hself] at hq
      exact ⟨rfl, (Option.some.inj hq).symm⟩
    · rw [pass?_update hcalls, if_neg heq] at hq
      exact absurd (h.one_pass other call q pass hq hpass) heq
  constructor
  · rw [hregistry]
    exact iff_of_true (h.closing_iff.mpr ⟨call, pass, hpass⟩) ⟨call, pass', hself⟩
  · intro c c' p p' hp hp'
    rw [(honly c p hp).1, (honly c' p' hp').1]
  · rw [hregistry]
    exact h.empty
  · rw [hregistry]
    exact h.keys
  · rw [hregistry]
    exact h.factories
  · intro c p hp
    rw [(honly c p hp).2]
    exact hinv
  · intro client hclient hclosable
    rw [hcreated] at hclient
    rw [hregistry]
    rcases h.created client hclient hclosable with hin | ⟨c, p, hp, howed⟩ | hin
    · exact Or.inl hin
    · obtain rfl : p = pass := by
        obtain rfl := h.one_pass c call p pass hp hpass
        exact Option.some.inj (hp.symm.trans hpass)
      rcases howes client hclosable howed with howed' | hin
      · exact Or.inr (Or.inl ⟨call, pass', hself, howed'⟩)
      · exact Or.inr (Or.inr hin)
    · exact Or.inr (Or.inr (hclosed hin))
  · intro client hclient
    rcases hstarted client hclient with hclient | hclosable
    · exact h.closable client hclient
    · exact hclosable

/-- A pass goes on to its next client. -/
lemma PassInv.next {closed started : List ObjectId} (h : PassInv o closed started pass)
    (hnext : pass.next o = some pass') :
    PassInv o closed (started ++ pass'.running.toList) pass' ∧
      (∀ client ∈ pass'.running.toList, o.closable client = true) ∧
      ∀ client, o.closable client = true → pass.Owes client → pass'.Owes client := by
  unfold ClosePass.next at hnext
  split at hnext
  case h_2 => cases hnext
  case h_1 client left hrunning hleft =>
    have hnodup := h.nodup
    rw [hleft] at hnodup
    split_ifs at hnext with hclosable
    · obtain rfl := Option.some.inj hnext
      have howes : ∀ c, pass.Owes c ↔ ClosePass.Owes
          { pass with left := left, running := some client, started := pass.started ++ [client] }
            c := by
        intro c
        unfold ClosePass.Owes
        rw [hleft, hrunning, List.mem_cons]
        simp only [reduceCtorEq, false_or, Option.some.injEq, eq_comm (a := client)]
        tauto
      refine ⟨⟨?_, h.keys, ?_, ?_, ?_, ?_, h.factories⟩, ?_, fun c _ => (howes c).mp⟩
      · rw [List.append_assoc]
        exact hnodup
      · exact fun entry hentry hc => (h.owed entry hentry hc).imp_left (howes _).mp
      · exact fun c hc => h.owns c ((howes c).mpr hc)
      · rintro c ⟨⟩
        simp
      · exact fun c hc => List.mem_append_left _ (h.failed_started c hc)
      · simpa using hclosable
    · obtain rfl := Option.some.inj hnext
      have howes : ∀ c, o.closable c = true → pass.Owes c →
          ClosePass.Owes { pass with left := left } c := by
        rintro c hc (hmem | hmem | hmem)
        · rw [hleft, List.mem_cons] at hmem
          rcases hmem with rfl | hmem
          · exact absurd hc hclosable
          · exact Or.inl hmem
        · exact Or.inr (Or.inl hmem)
        · exact Or.inr (Or.inr hmem)
      refine ⟨⟨?_, h.keys, ?_, ?_, ?_, ?_, h.factories⟩, ?_, howes⟩
      · exact hnodup.sublist ((List.Sublist.refl _).append (List.sublist_cons_self _ _))
      · exact fun entry hentry hc => (h.owed entry hentry hc).imp_left (howes _ hc)
      · rintro c (hmem | hmem)
        · exact h.owns c (Or.inl (by rw [hleft]; exact List.mem_cons_of_mem _ hmem))
        · exact h.owns c (Or.inr hmem)
      · exact fun c hc => List.mem_append_left _ (h.running_started c hc)
      · exact fun c hc => List.mem_append_left _ (h.failed_started c hc)
      · simp [hrunning]

/-- A pass learns what has become of closing a client. -/
lemma PassInv.outcome {closed started : List ObjectId} {client : ObjectId}
    {error : Option PyException} (h : PassInv o closed started pass)
    (hrunning : pass.running = some client) :
    let closed' := if error = none then closed ++ [client] else closed
    PassInv o closed' started (pass.outcome client error) ∧ closed ⊆ closed' ∧
      ∀ c, pass.Owes c → (pass.outcome client error).Owes c ∨ c ∈ closed' := by
  cases error with
  | none =>
    dsimp only
    rw [if_pos rfl]
    have howes : ∀ c, pass.Owes c →
        (pass.outcome client none).Owes c ∨ c ∈ closed ++ [client] := by
      rintro c (hmem | hmem | hmem)
      · exact Or.inl (Or.inl hmem)
      · rw [hrunning, Option.some.injEq] at hmem
        exact Or.inr (by simp [hmem])
      · exact Or.inl (Or.inr (Or.inr hmem))
    refine ⟨⟨h.nodup, h.keys, ?_, ?_, by simp [ClosePass.outcome], h.failed_started,
      h.factories⟩, ?_, howes⟩
    · intro entry hentry hc
      rcases h.owed entry hentry hc with howed | hclosed
      · exact howes _ howed
      · exact Or.inr (List.mem_append_left _ hclosed)
    · rintro c (hmem | hmem | hmem)
      · exact h.owns c (Or.inl hmem)
      · cases hmem
      · exact h.owns c (Or.inr (Or.inr hmem))
    · exact List.subset_append_left _ _
  | some e =>
    dsimp only
    rw [if_neg (by simp)]
    have howes : ∀ c, pass.Owes c ↔ (pass.outcome client (some e)).Owes c := by
      intro c
      simp only [ClosePass.Owes, ClosePass.outcome, hrunning, Option.some.injEq, reduceCtorEq,
        false_or, List.mem_append, List.mem_singleton, eq_comm (a := client)]
      tauto
    refine ⟨⟨h.nodup, h.keys, ?_, ?_, by simp [ClosePass.outcome], ?_, h.factories⟩,
      List.Subset.refl _, ?_⟩
    · exact fun entry hentry hc => (h.owed entry hentry hc).imp_left (howes _).mp
    · exact fun c hc => h.owns c ((howes c).mpr hc)
    · intro c hc
      rcases List.mem_append.mp hc with hc | hc
      · exact h.failed_started c hc
      · obtain rfl := List.mem_singleton.mp hc
        exact h.running_started c hrunning
    · exact fun c hc => Or.inl ((howes c).mp hc)

/-- What a request does: it finds a client or fails, and changes nothing, or it has a client
made. -/
lemma getClient_cases (o : PyObjects) (st : RegistryState) (req : ClientRequest)
    (made : Except PyException ObjectId) :
    (st.getClient o req made = st ∧ ∀ client, (st.registry.get o req made).1 = .ok client →
      st.registry.existing o req.key = some client) ∨
    ∃ client, made = .ok client ∧ st.registry.closing = false ∧
      st.registry.existing o req.key = none ∧ (st.registry.get o req made).1 = .ok client ∧
      st.getClient o req made =
        { st with
          registry := { st.registry with
            clients := setClient st.registry.clients req.key client
            factories := keepFactory st.registry.factories req.key.factoryId }
          created := st.created ++ [client] } := by
  unfold RegistryState.getClient ClientRegistry.get
  cases hclosing : st.registry.closing with
  | true => simp
  | false =>
    cases hexisting : st.registry.existing o req.key with
    | some client =>
      left
      simp
    | none =>
      cases made with
      | error e =>
        left
        simp [Except.toOption]
      | ok client =>
        right
        exact ⟨client, rfl, rfl, rfl, by simp, by simp [Except.toOption, hclosing]⟩

/-- There is no pass while the registry is open. -/
lemma RegistryInv.pass?_eq_none (h : RegistryInv o st) (hopen : st.registry.closing = false)
    (call : ℕ) : st.pass? call = none := by
  cases hpass : st.pass? call with
  | none => rfl
  | some pass =>
    have hclosing := h.closing_iff.mpr ⟨call, pass, hpass⟩
    rw [hopen] at hclosing
    cases hclosing

/-- A client that is made is registered, and none is lost. -/
lemma RegistryInv.make {req : ClientRequest} {client : ObjectId} (h : RegistryInv o st)
    (hopen : st.registry.closing = false) (hnone : st.registry.existing o req.key = none) :
    RegistryInv o
      { st with
        registry := { st.registry with
          clients := setClient st.registry.clients req.key client
          factories := keepFactory st.registry.factories req.key.factoryId }
        created := st.created ++ [client] } where
  closing_iff := h.closing_iff
  one_pass := h.one_pass
  empty hclosing := by
    rw [hopen] at hclosing
    cases hclosing
  keys := nodup_setClient h.keys
  factories entry hentry := by
    dsimp only [keepFactory]
    rcases mem_setClient hentry with rfl | ⟨hold, -⟩
    · split_ifs with hmem
      · exact hmem
      · exact List.mem_append_right _ (List.mem_singleton_self _)
    · have hkept := h.factories entry hold
      split_ifs
      · exact hkept
      · exact List.mem_append_left _ hkept
  passes := h.passes
  created c hc hclosable := by
    rcases List.mem_append.mp hc with hc | hc
    · rcases h.created c hc hclosable with ⟨key, hkey⟩ | hrest
      · refine Or.inl ⟨key, mem_setClient_of (Or.inr ⟨hkey, ?_⟩)⟩
        -- a client that is overwritten is `None`
        rintro rfl
        have hne : c ≠ o.noneId := by
          rintro rfl
          rw [o.not_closable_none] at hclosable
          cases hclosable
        rw [(existing_eq_some_iff h.keys).mpr ⟨hkey, hne⟩] at hnone
        cases hnone
      · exact Or.inr hrest
    · obtain rfl := List.mem_singleton.mp hc
      exact Or.inl ⟨req.key, mem_setClient_of (Or.inl rfl)⟩
  closable := h.closable

/-- A call of `close` while the registry closes owns no pass and changes nothing. -/
lemma beginClose_of_closing {r : ClientRegistry} (hclosing : r.closing = true) (event : ℕ) :
    (r.beginClose event).1.pass? = none ∧ (r.beginClose event).2 = r := by
  unfold ClientRegistry.beginClose
  rw [hclosing, if_pos rfl]
  cases r.closeFinished with
  | none => exact ⟨rfl, rfl⟩
  | some finished => exact ⟨rfl, rfl⟩

/-- The first call of `close` takes over what is registered. -/
lemma beginClose_of_open {r : ClientRegistry} (hopen : r.closing = false) (event : ℕ) :
    r.beginClose event =
      (.closing
        { event := event, entries := r.clients, factories := r.factories
          left := (r.clients.map Prod.snd).eraseDups },
        { clients := [], factories := [], closing := true, closeFinished := some event }) := by
  rw [ClientRegistry.beginClose, hopen, if_neg nofun]

/-- A call of `close` begins. -/
lemma RegistryInv.begin (h : RegistryInv o st) (hnew : st.calls call = none) :
    RegistryInv o (st.beginCall call) := by
  cases hclosing : st.registry.closing with
  | true =>
    have hbefore : st.pass? call = none := by rw [RegistryState.pass?, hnew, Option.bind_none]
    obtain ⟨hafter, hregistry⟩ := beginClose_of_closing hclosing st.events
    exact h.of_same hregistry (pass?_eq_of_none rfl hbefore hafter) rfl rfl rfl
  | false =>
    have hbegin := beginClose_of_open hclosing st.events
    obtain ⟨pass, hfirst, hleft, hentries, hfactories, hrunning, hstarted, hfailed⟩ :
        ∃ pass : ClosePass, (st.registry.beginClose st.events).1 = .closing pass ∧
          pass.left = (st.registry.clients.map Prod.snd).eraseDups ∧
          pass.entries = st.registry.clients ∧ pass.factories = st.registry.factories ∧
          pass.running = none ∧ pass.started = [] ∧ pass.failed = [] := by
      rw [hbegin]
      exact ⟨_, rfl, rfl, rfl, rfl, rfl, rfl, rfl⟩
    have hpass : ∀ other, (st.beginCall call).pass? other =
        if other = call then some pass else none := by
      intro other
      rw [@pass?_update st _ call (.closing pass) (by rw [← hfirst]; rfl),
        h.pass?_eq_none hclosing]
      rfl
    have honly : ∀ other q, (st.beginCall call).pass? other = some q → other = call ∧ q = pass := by
      intro other q hq
      rw [hpass] at hq
      split_ifs at hq with heq
      exact ⟨heq, (Option.some.inj hq).symm⟩
    have hclients : (st.beginCall call).registry =
        { clients := [], factories := [], closing := true, closeFinished := some st.events } := by
      show (st.registry.beginClose st.events).2 = _
      rw [hbegin]
    have howes : ∀ c, pass.Owes c ↔ ∃ key, (key, c) ∈ st.registry.clients := by
      intro c
      unfold ClosePass.Owes
      rw [hleft, hrunning, hfailed, List.mem_eraseDups, List.mem_map]
      simp
    constructor
    · rw [hclients]
      exact iff_of_true rfl ⟨call, pass, by rw [hpass, if_pos rfl]⟩
    · intro c c' p p' hp hp'
      rw [(honly c p hp).1, (honly c' p' hp').1]
    · intro _
      rw [hclients]
    · rw [hclients]
      exact List.nodup_nil
    · rw [hclients]
      exact nofun
    · intro c p hp
      rw [(honly c p hp).2]
      refine ⟨?_, ?_, ?_, ?_, ?_, ?_, ?_⟩
      · rw [hstarted, List.nil_append, hleft]
        exact nodup_eraseDups _
      · rw [hentries]
        exact h.keys
      · intro entry hentry _
        rw [hentries] at hentry
        exact Or.inl ((howes entry.2).mpr ⟨entry.1, hentry⟩)
      · intro client hclient
        rw [hentries]
        exact (howes client).mp hclient
      · rw [hrunning]
        exact nofun
      · rw [hfailed]
        exact nofun
      · rw [hentries, hfactories]
        exact h.factories
    · intro client hclient hclosable
      rcases h.created client hclient hclosable with hin | ⟨c, p, hp, -⟩ | hclosed
      · exact Or.inr (Or.inl ⟨call, pass, by rw [hpass, if_pos rfl], (howes client).mpr hin⟩)
      · rw [h.pass?_eq_none hclosing] at hp
        cases hp
      · exact Or.inr (Or.inr hclosed)
    · exact h.closable

/-- A call of `close` comes to its end: what it still owes is put back. -/
lemma RegistryInv.finish (h : RegistryInv o st) (hpass : st.pass? call = some pass)
    (hrunning : pass.running = none) (hleft : pass.left = []) :
    RegistryInv o (st.finishCall call pass) := by
  have hinv := h.passes call pass hpass
  have hnone : ∀ other, (st.finishCall call pass).pass? other = none := by
    intro other
    rw [@pass?_update st _ call (.returned pass.firstError) rfl]
    split_ifs with heq
    · rfl
    · cases hother : st.pass? other with
      | none => rfl
      | some q => exact absurd (h.one_pass other call q pass hother hpass) heq
  have hempty : st.registry.clients = [] := h.empty (h.closing_iff.mpr ⟨call, pass, hpass⟩)
  have howes : ∀ c, pass.Owes c ↔ c ∈ pass.failed := by
    intro c
    simp [ClosePass.Owes, hrunning, hleft]
  have hclients : (st.finishCall call pass).registry.clients = pass.keptEntries := by
    show (if pass.failed = [] then st.registry.clients else pass.keptEntries) = _
    split_ifs with hfailed
    · rw [hempty, ClosePass.keptEntries, hfailed]
      exact (List.filter_eq_nil_iff.mpr (by simp)).symm
    · rfl
  have hkept : ∀ c ∈ pass.failed, ∃ key, (key, c) ∈ pass.keptEntries := by
    intro c hc
    obtain ⟨key, hkey⟩ := hinv.owns c ((howes c).mpr hc)
    exact ⟨key, List.mem_filter.mpr ⟨hkey, decide_eq_true hc⟩⟩
  constructor
  · refine iff_of_false (show ¬ (false = true) from nofun) ?_
    rintro ⟨other, q, hq⟩
    rw [hnone] at hq
    cases hq
  · intro c c' p p' hp
    rw [hnone] at hp
    cases hp
  · exact nofun
  · rw [hclients]
    exact hinv.keys.sublist (List.filter_sublist.map _)
  · intro entry hentry
    rw [hclients] at hentry
    show entry.1.factoryId ∈ if pass.failed = [] then st.registry.factories else pass.keptFactories
    obtain ⟨hold, hfailed⟩ := List.mem_filter.mp hentry
    rw [if_neg (List.ne_nil_of_mem (of_decide_eq_true hfailed))]
    refine List.mem_filter.mpr ⟨hinv.factories entry hold, decide_eq_true ?_⟩
    exact List.mem_map_of_mem hentry
  · intro c p hp
    rw [hnone] at hp
    cases hp
  · intro client hclient hclosable
    rw [hclients]
    rcases h.created client hclient hclosable with ⟨key, hkey⟩ | ⟨c, p, hp, howed⟩ | hclosed
    · rw [hempty] at hkey
      cases hkey
    · obtain rfl : p = pass := by
        obtain rfl := h.one_pass c call p pass hp hpass
        exact Option.some.inj (hp.symm.trans hpass)
      exact Or.inl (hkept client ((howes client).mp howed))
    · exact Or.inr (Or.inr hclosed)
  · exact h.closable

/-- **One step.** Every step keeps the invariant. -/
lemma registryInv_step {e : RegistryEvent} (h : RegistryInv o st) (hstep : st.step o e = some st') :
    RegistryInv o st' := by
  cases e with
  | get req made =>
    obtain rfl := Option.some.inj hstep
    rcases getClient_cases o st req made with ⟨heq, -⟩ | ⟨client, -, hopen, hnone, -, heq⟩
    · rw [heq]
      exact h
    · rw [heq]
      exact h.make hopen hnone
  | close call =>
    simp only [RegistryState.step] at hstep
    split_ifs at hstep with hnew
    obtain rfl := Option.some.inj hstep
    exact h.begin (Option.not_isSome_iff_eq_none.mp hnew)
  | next call =>
    obtain ⟨pass, hpass, hstep⟩ := Option.bind_eq_some_iff.mp hstep
    obtain ⟨pass', hnext, rfl⟩ := Option.map_eq_some_iff.mp hstep
    obtain ⟨hinv, hclosable, howes⟩ := (h.passes call pass hpass).next hnext
    refine h.of_pass hpass rfl rfl rfl (List.Subset.refl _) ?_ hinv
      (fun c hc howed => Or.inl (howes c hc howed))
    intro client hclient
    exact (List.mem_append.mp hclient).imp_right (hclosable client)
  | outcome call error =>
    obtain ⟨pass, hpass, hstep⟩ := Option.bind_eq_some_iff.mp hstep
    obtain ⟨client, hrunning, rfl⟩ := Option.map_eq_some_iff.mp hstep
    obtain ⟨hinv, hclosed, howes⟩ :=
      @PassInv.outcome _ _ _ _ _ error (h.passes call pass hpass) hrunning
    exact h.of_pass hpass rfl rfl rfl hclosed (fun c hc => Or.inl hc) hinv
      (fun c _ howed => howes c howed)
  | finish call =>
    obtain ⟨pass, hpass, hstep⟩ := Option.bind_eq_some_iff.mp hstep
    split_ifs at hstep with hend
    obtain rfl := Option.some.inj hstep
    exact h.finish hpass hend.1 hend.2
  | wake call =>
    simp only [RegistryState.step] at hstep
    split at hstep
    case h_1 event hwaiting =>
      split_ifs at hstep
      obtain rfl := Option.some.inj hstep
      have hbefore : st.pass? call = none := by rw [RegistryState.pass?, hwaiting]; rfl
      exact h.of_same rfl (pass?_eq_of_none rfl hbefore rfl) rfl rfl rfl
    case h_2 => cases hstep
  | cancel call =>
    simp only [RegistryState.step] at hstep
    split at hstep
    case h_1 event hwaiting =>
      obtain rfl := Option.some.inj hstep
      have hbefore : st.pass? call = none := by rw [RegistryState.pass?, hwaiting]; rfl
      exact h.of_same rfl (pass?_eq_of_none rfl hbefore rfl) rfl rfl rfl
    case h_2 => cases hstep

end Step

/-- The empty registry satisfies the invariant. -/
lemma registryInv_init (o : PyObjects) : RegistryInv o {} where
  closing_iff := by simp [RegistryState.pass?]
  one_pass := nofun
  empty _ := rfl
  keys := List.nodup_nil
  factories := nofun
  passes := nofun
  created := nofun
  closable := nofun

/-- The invariant holds after every history. -/
lemma registryInv_of_history (o : PyObjects) (es : List RegistryEvent) :
    RegistryInv o (History.replay (RegistryState.step o) {} es) :=
  History.replay_invariant (RegistryState.step o) (fun _ _ _ => registryInv_step)
    (registryInv_init o) es

/-- **No client is leaked or closed twice.** After every history of any number of calls of
`get_openai`, `get_tavily` and `close`, interleaved at the points where they wait, with factories
that fail or return one object for several keys and with calls of `close` that raise or are
cancelled: every client with a `close` method that was created is registered, or the one pass that
is running has yet to close it or put it back, or it was closed; no pass has called `close` twice on
one client; there is at most one pass; and no client is registered meanwhile.

**Proof sketch.** A pass takes over all registered clients, without repetitions, and each moves from
those that are left to the one that is running, and from there to the closed or the failed ones. The
failed ones are registered again in the step that ends the pass. While it lasts the flag keeps other
passes and further clients out. -/
theorem registrySound_of_history (o : PyObjects) (es : List RegistryEvent) :
    RegistrySound o (History.replay (RegistryState.step o) {} es) :=
  (registryInv_of_history o es).sound

/-- The factory of a registered client is kept alive, so its identity stands for no other
factory. -/
theorem factory_kept (o : PyObjects) (es : List RegistryEvent) :
    let registry := (History.replay (RegistryState.step o) {} es).registry
    ∀ entry ∈ registry.clients, entry.1.factoryId ∈ registry.factories :=
  (registryInv_of_history o es).factories

/-! ## Clients on which close was called -/

/-- The registered clients on which `close` was called are those that the last shutdown put back. -/
structure KeptInv (o : PyObjects) (st : RegistryState) : Prop extends RegistryInv o st where
  kept_iff : ∀ entry ∈ st.registry.clients, entry.2 ∈ st.started ↔ entry.1 ∈ st.kept
  kept_keys : ∀ key ∈ st.kept, key ∈ st.registry.clients.map Prod.fst

section Kept

variable {o : PyObjects} {st st' : RegistryState} {req : ClientRequest}

/-- A key without a client was not put back. -/
lemma KeptInv.not_mem_kept (h : KeptInv o st) (hnone : st.registry.existing o req.key = none) :
    req.key ∉ st.kept := by
  intro hkept
  obtain ⟨⟨key, client⟩, hentry, rfl⟩ := List.mem_map.mp (h.kept_keys _ hkept)
  have hclosable : o.closable client = true :=
    h.closable client ((h.kept_iff _ hentry).mpr hkept)
  have hne : client ≠ o.noneId := by
    rintro rfl
    rw [o.not_closable_none] at hclosable
    cases hclosable
  rw [(existing_eq_some_iff h.keys).mpr ⟨hentry, hne⟩] at hnone
  cases hnone

/-- A request is not given a client on which `close` was called exactly if it meets the
condition. -/
lemma unclosed_iff {e : RegistryEvent} (h : KeptInv o st) :
    Unclosed o st e ↔ TakesUnclosed o st e := by
  cases e with
  | get req made =>
    simp only [Unclosed, TakesUnclosed, ClientRegistry.get]
    cases hclosing : st.registry.closing with
    | true => simp
    | false =>
      cases hexisting : st.registry.existing o req.key with
      | some client =>
        have hentry := ((existing_eq_some_iff h.keys).mp hexisting).1
        simp [← h.kept_iff _ hentry]
      | none =>
        have hkept := h.not_mem_kept hexisting
        cases made <;> simp [hkept]
  | _ => exact Iff.rfl

/-- While the registry closes no key is one that was put back. -/
lemma KeptInv.kept_eq_nil (h : KeptInv o st) (hempty : st.registry.clients = []) :
    st.kept = [] := by
  rw [List.eq_nil_iff_forall_not_mem]
  intro key hkey
  have hmem := h.kept_keys key hkey
  rw [hempty] at hmem
  cases hmem

/-- A step after which nothing is registered. -/
lemma KeptInv.of_empty (hinv : RegistryInv o st') (hempty : st'.registry.clients = [])
    (hkept : st'.kept = []) : KeptInv o st' where
  toRegistryInv := hinv
  kept_iff entry hentry := by
    rw [hempty] at hentry
    cases hentry
  kept_keys key hkey := by
    rw [hkept] at hkey
    cases hkey

/-- A step that changes neither what is registered nor on what `close` was called. -/
lemma KeptInv.of_same (h : KeptInv o st) (hinv : RegistryInv o st')
    (hclients : st'.registry.clients = st.registry.clients) (hstarted : st'.started = st.started)
    (hkept : st'.kept = st.kept) : KeptInv o st' where
  toRegistryInv := hinv
  kept_iff := by
    rw [hclients, hstarted, hkept]
    exact h.kept_iff
  kept_keys := by
    rw [hclients, hkept]
    exact h.kept_keys

/-- What a call of `close` puts back. -/
lemma KeptInv.finish {call : ℕ} {pass : ClosePass} (h : KeptInv o st)
    (hpass : st.pass? call = some pass) (hinv : RegistryInv o (st.finishCall call pass)) :
    KeptInv o (st.finishCall call pass) := by
  by_cases hfailed : pass.failed = []
  · refine h.of_same hinv ?_ rfl ?_
    · exact if_pos hfailed
    · exact if_pos hfailed
  · have hclients : (st.finishCall call pass).registry.clients = pass.keptEntries := if_neg hfailed
    have hkept : (st.finishCall call pass).kept = pass.keptEntries.map Prod.fst := if_neg hfailed
    refine { toRegistryInv := hinv, kept_iff := fun entry hentry => ?_, kept_keys := ?_ }
    · rw [hclients] at hentry
      rw [hkept]
      refine iff_of_true ?_ (List.mem_map_of_mem hentry)
      exact (h.passes call pass hpass).failed_started entry.2
        (of_decide_eq_true (List.mem_filter.mp hentry).2)
    · rw [hkept, hclients]
      exact fun _ hkey => hkey

/-- A step that does not hand out such a client keeps the invariant. -/
lemma KeptInv.step {e : RegistryEvent} (h : KeptInv o st) (hstep : st.step o e = some st')
    (hunclosed : Unclosed o st e) : KeptInv o st' := by
  have hinv := registryInv_step h.toRegistryInv hstep
  cases e with
  | get req made =>
    obtain rfl := Option.some.inj hstep
    rcases getClient_cases o st req made with ⟨heq, -⟩ | ⟨client, -, -, hnone, hanswer, heq⟩
    · rw [heq]
      exact h
    · rw [heq] at hinv ⊢
      refine { toRegistryInv := hinv, kept_iff := fun entry hentry => ?_, kept_keys := ?_ }
      · rcases mem_setClient hentry with rfl | ⟨hold, -⟩
        · exact iff_of_false (hunclosed client hanswer) (h.not_mem_kept hnone)
        · exact h.kept_iff entry hold
      · exact fun key hkey => mem_keys_setClient (h.kept_keys key hkey)
  | close call =>
    simp only [RegistryState.step] at hstep
    split_ifs at hstep
    obtain rfl := Option.some.inj hstep
    cases hclosing : st.registry.closing with
    | true =>
      refine h.of_same hinv ?_ rfl ?_
      · exact congrArg ClientRegistry.clients (beginClose_of_closing hclosing st.events).2
      · exact if_pos hclosing
    | false =>
      refine KeptInv.of_empty hinv ?_ ?_
      · exact congrArg (fun r => r.2.clients) (beginClose_of_open hclosing st.events)
      · exact if_neg (by rw [hclosing]; exact nofun)
  | next call =>
    obtain ⟨pass, hpass, hstep⟩ := Option.bind_eq_some_iff.mp hstep
    obtain ⟨pass', -, rfl⟩ := Option.map_eq_some_iff.mp hstep
    have hempty := h.empty (h.closing_iff.mpr ⟨call, pass, hpass⟩)
    exact KeptInv.of_empty hinv hempty (h.kept_eq_nil hempty)
  | outcome call error =>
    obtain ⟨pass, -, hstep⟩ := Option.bind_eq_some_iff.mp hstep
    obtain ⟨client, -, rfl⟩ := Option.map_eq_some_iff.mp hstep
    exact h.of_same hinv rfl rfl rfl
  | finish call =>
    obtain ⟨pass, hpass, hstep⟩ := Option.bind_eq_some_iff.mp hstep
    split_ifs at hstep
    obtain rfl := Option.some.inj hstep
    exact h.finish hpass hinv
  | wake call =>
    simp only [RegistryState.step] at hstep
    split at hstep
    case h_1 event hwaiting =>
      split_ifs at hstep
      obtain rfl := Option.some.inj hstep
      exact h.of_same hinv rfl rfl rfl
    case h_2 => cases hstep
  | cancel call =>
    simp only [RegistryState.step] at hstep
    split at hstep
    case h_1 event hwaiting =>
      obtain rfl := Option.some.inj hstep
      exact h.of_same hinv rfl rfl rfl
    case h_2 => cases hstep

/-- The empty registry satisfies the invariant. -/
lemma keptInv_init (o : PyObjects) : KeptInv o {} :=
  KeptInv.of_empty (registryInv_init o) rfl rfl

/-- **Clients on which close was called.** In a history of the registry no request is given a client
on which `close` was called exactly if every request to the open registry is for a key that the last
shutdown has not put back, and no factory returns such a client.

**Proof sketch.** A shutdown leaves in the registry only what it could not close, and on that it has
called `close`. What is registered later comes from a factory. -/
theorem unclosed_history_iff (o : PyObjects) (es : List RegistryEvent) :
    History.Along (RegistryState.step o) (fun st e _ => Unclosed o st e) {} es ↔
      History.Guarded (RegistryState.step o) (TakesUnclosed o) {} es :=
  History.along_iff_guarded (RegistryState.step o) (I := KeptInv o)
    (R := fun st e _ => Unclosed o st e) (fun _ _ _ hI _ => unclosed_iff hI)
    (fun _ _ _ hI hstep hR => hI.step hstep hR) (keptInv_init o) es

end Kept

end VCBrain

import VCBrain.ClientLifecycle

set_option relaxedAutoImplicit false
set_option autoImplicit false

/-!
# The storage client

The storage module owns one client in the way the registry owns many: a request makes it unless it
is there, a shutdown takes it out, and puts it back if it could not be closed. The client is made
under the lock, with its bucket, and closed without it. This file determines when a request is given
a client that was closed, or that a shutdown has tried to close, here and in the registry.

## Main definitions

* `ensureBucket`, `StorageState.getClient` — the making of a client.
* `StorageState.step` — any number of calls of `_get_client` and `close_client`.
* `TakesUnclosedStorage` — the condition on a request.

## Main results

* `unclosedStorage_iff` — requests are not given such a client exactly if they meet the condition.
* `unclosedClients_iff` — the same of the registry and the storage module together.

## Design

While a client is made the lock is held, so nothing else happens to the module, and a request is one
step. At its end a shutdown asks for the lock again; requests may be waiting for it, so it may be
cancelled there, and then the module stays closed for good.
-/

namespace VCBrain

/-! ## The client -/

/-- What the store says to a request about the bucket. -/
inductive BucketReply where
  | ok
  | clientError (code : Str)
  | raises (e : PyException)

/-- `_ensure_bucket`: the exception it raises, if any. -/
def ensureBucket (ensured : Bool) (head create : BucketReply) : Option PyException :=
  if ensured then none
  else match head with
    | .ok => none
    | .raises e => some e
    | .clientError code =>
      if code ∉ (["404", "NoSuchBucket", "NotFound"] : List Str) then some (.error code)
      else match create with
        | .ok => none
        | .raises e => some e
        | .clientError code =>
          if code ≠ "BucketAlreadyOwnedByYou" then some (.error code) else none

/-- A call of `close_client`. -/
inductive StorageCall where
  /-- Another call is closing the client. -/
  | waiting (event : ℕ)
  /-- The call has taken the client out and waits for its context to exit. -/
  | exiting (client : Option ObjectId) (bucketEnsured : Bool) (event : ℕ)
  /-- The call asks for the lock. -/
  | releasing (client : Option ObjectId) (bucketEnsured : Bool) (event : ℕ)
      (error : Option PyException)
  | returned (error : Option PyException)

/-- The globals of the module, the calls of `close_client`, and the events that are set; and the
clients whose contexts were exited, and whether the client is one that a shutdown has put back. -/
structure StorageState where
  client : Option ObjectId := none
  bucketEnsured : Bool := false
  closing : Bool := false
  closeFinished : Option ℕ := none
  calls : ℕ → Option StorageCall := fun _ => none
  events : ℕ := 0
  finished : List ℕ := []
  started : List ObjectId := []
  kept : Bool := false

/-- Why a request is not given the client. -/
inductive StorageError where
  | closing
  | setup (e : PyException)
deriving DecidableEq

/-- A request, with what its own calls would answer; or a call of `close_client` begins, learns what
has become of the exit, comes to its end, is cancelled before that, is woken up by the end of
another one, or is cancelled while it waits for that. -/
inductive StorageEvent where
  | get (entered : Except PyException ObjectId) (head create : BucketReply)
  | close (call : ℕ)
  | exited (call : ℕ) (error : Option PyException)
  | finish (call : ℕ)
  | abandon (call : ℕ)
  | wake (call : ℕ)
  | cancel (call : ℕ)

namespace StorageState

/-- `_get_client`: the answer, and the state it leaves. -/
def getClient (st : StorageState) (entered : Except PyException ObjectId)
    (head create : BucketReply) : Except StorageError ObjectId × StorageState :=
  if st.closing then (.error .closing, st)
  else match st.client with
    | some client => (.ok client, st)
    | none =>
      match entered with
      | .error e => (.error (.setup e), st)
      | .ok client =>
        match ensureBucket st.bucketEnsured head create with
        | none =>
          (.ok client, { st with client := some client, bucketEnsured := true, kept := false })
        | some e => (.error (.setup e), { st with started := st.started ++ [client] })

/-- The state in which a call of `close_client` has got to a point. -/
def putCall (st : StorageState) (call : ℕ) (c : StorageCall) : StorageState :=
  { st with calls := Function.update st.calls call (some c) }

/-- `close_client` up to the exit of the context. -/
def beginClose (st : StorageState) (call : ℕ) : StorageState :=
  if st.closing then
    match st.closeFinished with
    | some finished => st.putCall call (.waiting finished)
    | none => st.putCall call (.returned none)
  else
    { st.putCall call (.exiting st.client st.bucketEnsured st.events) with
      client := none
      bucketEnsured := false
      closing := true
      closeFinished := some st.events
      events := st.events + 1
      started := st.started ++ st.client.toList
      kept := false }

/-- `close_client` when it has the lock again. -/
def finishClose (st : StorageState) (call : ℕ) (client : Option ObjectId) (bucketEnsured : Bool)
    (event : ℕ) (error : Option PyException) : StorageState :=
  let open' : StorageState := { st.putCall call (.returned error) with
    closing := false, closeFinished := none, finished := event :: st.finished }
  if error ≠ none ∧ client ≠ none then
    { open' with client := client, bucketEnsured := bucketEnsured, kept := true }
  else open'

/-- The state after an event, unless it is not possible. -/
def step (st : StorageState) : StorageEvent → Option StorageState
  | .get entered head create => some (st.getClient entered head create).2
  | .close call => if (st.calls call).isSome then none else some (st.beginClose call)
  | .exited call error =>
    match st.calls call with
    | some (.exiting client bucketEnsured event) =>
      if client = none ∧ error ≠ none then none
      else some (st.putCall call (.releasing client bucketEnsured event error))
    | _ => none
  | .finish call =>
    match st.calls call with
    | some (.releasing client bucketEnsured event error) =>
      some (st.finishClose call client bucketEnsured event error)
    | _ => none
  | .abandon call =>
    match st.calls call with
    | some (.releasing _ _ _ _) => some (st.putCall call (.returned (some .cancelled)))
    | _ => none
  | .wake call =>
    match st.calls call with
    | some (.waiting event) =>
      if event ∈ st.finished then some (st.putCall call (.returned none)) else none
    | _ => none
  | .cancel call =>
    match st.calls call with
    | some (.waiting _) => some (st.putCall call (.returned (some .cancelled)))
    | _ => none

end StorageState

/-- A request is not given a client whose context was exited. -/
def UnclosedStorage (st : StorageState) : StorageEvent → Prop
  | .get entered head create => ∀ client,
      (st.getClient entered head create).1 = .ok client → client ∉ st.started
  | _ => True

/-- The condition on a request while the module is open: the client is not one that a shutdown has
put back, and if there is none, one that can be set up is not such a client either. -/
def TakesUnclosedStorage (st : StorageState) : StorageEvent → Prop
  | .get entered head create => st.closing = false → (st.client ≠ none → st.kept = false) ∧
      (st.client = none → ensureBucket st.bucketEnsured head create = none →
        ∀ client, entered = .ok client → client ∉ st.started)
  | _ => True

/-! ## The invariant -/

/-- The client was exited exactly if it was put back, and so was any that a call has taken out. -/
structure StorageInv (st : StorageState) : Prop where
  kept_iff : ∀ client, st.client = some client → (client ∈ st.started ↔ st.kept = true)
  exiting : ∀ call client bucketEnsured event,
    st.calls call = some (.exiting (some client) bucketEnsured event) → client ∈ st.started
  releasing : ∀ call client bucketEnsured event error,
    st.calls call = some (.releasing (some client) bucketEnsured event error) → client ∈ st.started

section Step

variable {st st' : StorageState} {call : ℕ}

/-- A request is not given such a client exactly if it meets the condition. -/
lemma unclosedStorage_step_iff {e : StorageEvent} (h : StorageInv st) :
    UnclosedStorage st e ↔ TakesUnclosedStorage st e := by
  cases e with
  | get entered head create =>
    simp only [UnclosedStorage, TakesUnclosedStorage, StorageState.getClient]
    cases hclosing : st.closing with
    | true => simp
    | false =>
      cases hclient : st.client with
      | some client => simp [h.kept_iff client hclient]
      | none =>
        cases entered with
        | error e => simp
        | ok client => cases ensureBucket st.bucketEnsured head create <;> simp
  | _ => exact Iff.rfl

/-- A call that gets to a point where it has no client, or one whose context was exited. -/
lemma StorageInv.put {c : StorageCall} (h : StorageInv st)
    (hexiting : ∀ client bucketEnsured event,
      c = .exiting (some client) bucketEnsured event → client ∈ st.started)
    (hreleasing : ∀ client bucketEnsured event error,
      c = .releasing (some client) bucketEnsured event error → client ∈ st.started) :
    StorageInv (st.putCall call c) where
  kept_iff := h.kept_iff
  exiting other client bucketEnsured event hother := by
    by_cases heq : other = call
    · subst heq
      simp only [StorageState.putCall, Function.update_self, Option.some.injEq] at hother
      exact hexiting client bucketEnsured event hother
    · simp only [StorageState.putCall, Function.update_of_ne heq] at hother
      exact h.exiting other client bucketEnsured event hother
  releasing other client bucketEnsured event error hother := by
    by_cases heq : other = call
    · subst heq
      simp only [StorageState.putCall, Function.update_self, Option.some.injEq] at hother
      exact hreleasing client bucketEnsured event error hother
    · simp only [StorageState.putCall, Function.update_of_ne heq] at hother
      exact h.releasing other client bucketEnsured event error hother

/-- More contexts were exited, and the client is one to which the invariant applies. -/
lemma StorageInv.of_calls (h : StorageInv st) (hcalls : st'.calls = st.calls)
    (hstarted : st.started ⊆ st'.started)
    (hkept : ∀ client, st'.client = some client → (client ∈ st'.started ↔ st'.kept = true)) :
    StorageInv st' where
  kept_iff := hkept
  exiting other client bucketEnsured event hother := by
    rw [hcalls] at hother
    exact hstarted (h.exiting other client bucketEnsured event hother)
  releasing other client bucketEnsured event error hother := by
    rw [hcalls] at hother
    exact hstarted (h.releasing other client bucketEnsured event error hother)

/-- A request that is not given such a client. -/
lemma StorageInv.get {entered : Except PyException ObjectId} {head create : BucketReply}
    (h : StorageInv st) (hunclosed : UnclosedStorage st (.get entered head create)) :
    StorageInv (st.getClient entered head create).2 := by
  simp only [UnclosedStorage, StorageState.getClient] at hunclosed
  unfold StorageState.getClient
  split_ifs at hunclosed ⊢ with hclosing
  · exact h
  · cases hclient : st.client with
    | some client => exact h
    | none =>
      cases entered with
      | error e => exact h
      | ok client =>
        cases hbucket : ensureBucket st.bucketEnsured head create with
        | none =>
          rw [hclient, hbucket] at hunclosed
          refine h.of_calls rfl (List.Subset.refl _) ?_
          rintro c ⟨⟩
          exact iff_of_false (hunclosed client rfl) nofun
        | some e =>
          refine h.of_calls rfl (List.subset_append_left _ _) fun c hc => ?_
          cases hc

/-- A call of `close_client` begins. -/
lemma StorageInv.begin (h : StorageInv st) : StorageInv (st.beginClose call) := by
  unfold StorageState.beginClose
  split_ifs with hclosing
  · cases st.closeFinished with
    | none => exact h.put nofun nofun
    | some finished => exact h.put nofun nofun
  · have hmore : StorageInv { st with
        client := none, bucketEnsured := false, closing := true, closeFinished := some st.events
        events := st.events + 1, started := st.started ++ st.client.toList, kept := false } :=
      h.of_calls rfl (List.subset_append_left _ _) nofun
    refine @StorageInv.put _ call (.exiting st.client st.bucketEnsured st.events) hmore ?_ nofun
    intro client bucketEnsured event heq
    obtain ⟨hclient, -, -⟩ := StorageCall.exiting.inj heq
    simp [hclient]

/-- A call of `close_client` comes to its end. -/
lemma StorageInv.finish {client : Option ObjectId} {bucketEnsured : Bool} {event : ℕ}
    {error : Option PyException} (h : StorageInv st)
    (hcall : st.calls call = some (.releasing client bucketEnsured event error)) :
    StorageInv (st.finishClose call client bucketEnsured event error) := by
  have hopen : StorageInv (st.putCall call (.returned error)) := h.put nofun nofun
  unfold StorageState.finishClose
  dsimp only
  split_ifs with hkept
  · refine hopen.of_calls rfl (List.Subset.refl _) ?_
    rintro c hc
    obtain rfl : client = some c := hc
    exact iff_of_true (h.releasing call c bucketEnsured event error hcall) rfl
  · exact hopen.of_calls rfl (List.Subset.refl _) hopen.kept_iff

/-- A step that does not hand out such a client keeps the invariant. -/
lemma StorageInv.step {e : StorageEvent} (h : StorageInv st) (hstep : st.step e = some st')
    (hunclosed : UnclosedStorage st e) : StorageInv st' := by
  cases e with
  | get entered head create =>
    obtain rfl := Option.some.inj hstep
    exact h.get hunclosed
  | close call =>
    simp only [StorageState.step] at hstep
    split_ifs at hstep
    obtain rfl := Option.some.inj hstep
    exact h.begin
  | exited call error =>
    simp only [StorageState.step] at hstep
    split at hstep
    case h_1 client bucketEnsured event hcall =>
      split_ifs at hstep
      obtain rfl := Option.some.inj hstep
      refine h.put nofun fun c _ _ _ heq => ?_
      obtain ⟨rfl, rfl, rfl, rfl⟩ := StorageCall.releasing.inj heq
      exact h.exiting call c _ _ hcall
    case h_2 => cases hstep
  | finish call =>
    simp only [StorageState.step] at hstep
    split at hstep
    case h_1 client bucketEnsured event error hcall =>
      obtain rfl := Option.some.inj hstep
      exact h.finish hcall
    case h_2 => cases hstep
  | abandon call =>
    simp only [StorageState.step] at hstep
    split at hstep
    case h_1 =>
      obtain rfl := Option.some.inj hstep
      exact h.put nofun nofun
    case h_2 => cases hstep
  | wake call =>
    simp only [StorageState.step] at hstep
    split at hstep
    case h_1 =>
      split_ifs at hstep
      obtain rfl := Option.some.inj hstep
      exact h.put nofun nofun
    case h_2 => cases hstep
  | cancel call =>
    simp only [StorageState.step] at hstep
    split at hstep
    case h_1 =>
      obtain rfl := Option.some.inj hstep
      exact h.put nofun nofun
    case h_2 => cases hstep

end Step

/-- The invariant holds when the module is loaded. -/
lemma storageInv_init : StorageInv {} where
  kept_iff _ hclient := by cases hclient
  exiting _ _ _ _ hcall := by cases hcall
  releasing _ _ _ _ _ hcall := by cases hcall

/-- In a history of the module no request is given a client whose context was exited exactly if
every request meets the condition. -/
theorem unclosedStorage_iff (fs : List StorageEvent) :
    History.Along StorageState.step (fun st e _ => UnclosedStorage st e) {} fs ↔
      History.Guarded StorageState.step TakesUnclosedStorage {} fs :=
  History.along_iff_guarded StorageState.step (I := StorageInv)
    (R := fun st e _ => UnclosedStorage st e) (fun _ _ _ hI _ => unclosedStorage_step_iff hI)
    (fun _ _ _ hI hstep hR => hI.step hstep hR) storageInv_init fs

/-- **Clients that were closed.** In histories of the registry and of the storage module no request
is given a client on which a close was called exactly if every request to the open registry, and
every request to the open module, is for a client that the last shutdown has not put back because it
could not close it, and what is newly made was not closed before. -/
theorem unclosedClients_iff (o : PyObjects) (es : List RegistryEvent) (fs : List StorageEvent) :
    (History.Along (RegistryState.step o) (fun st e _ => Unclosed o st e) {} es ↔
      History.Guarded (RegistryState.step o) (TakesUnclosed o) {} es) ∧
    (History.Along StorageState.step (fun st e _ => UnclosedStorage st e) {} fs ↔
      History.Guarded StorageState.step TakesUnclosedStorage {} fs) :=
  ⟨unclosed_history_iff o es, unclosedStorage_iff fs⟩

/-- Every object but `None` can be closed. -/
def allClosable : PyObjects where
  noneId := 0
  closable id := id ≠ 0
  not_closable_none := rfl

/-- A shutdown fails to close a client, and the next request is given that client. -/
theorem not_unclosedClients_failedClose :
    ¬ History.Along (RegistryState.step allClosable) (fun st e _ => Unclosed allClosable st e) {}
        ([.get (.openai 1 "key" none none) (.ok 7), .close 0, .next 0,
          .outcome 0 (some (.error "temporary")),
          .finish 0] ++ [.get (.openai 1 "key" none none) (.ok 8)]) ∧
      ¬ History.Along StorageState.step (fun st e _ => UnclosedStorage st e) {}
        ([.get (.ok 7) .ok .ok, .close 0, .exited 0 (some (.error "temporary")), .finish 0] ++
          [.get (.ok 8) .ok .ok]) := by
  constructor
  · rw [History.along_append]
    rintro ⟨-, hget, -⟩
    exact hget _ rfl 7 (by decide +kernel) (by decide +kernel)
  · rw [History.along_append]
    rintro ⟨-, hget, -⟩
    exact hget _ rfl 7 (by decide +kernel) (by decide +kernel)

end VCBrain

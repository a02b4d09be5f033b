import VCBrain.Storage
import VCBrain.Foundation.Guarded

set_option relaxedAutoImplicit false
set_option autoImplicit false

/-!
# The store of snapshots

A snapshot is stored under its source type and the hash of its content, unless there is an object
under this key. Several calls look for the same key and store it at once, and a call may fail after
the store has taken the object. What a call has returned is written to a row later.

## Main definitions

* `PutCall`, `SnapshotStore` — the calls of `put_snapshot`, the objects, and the rows.
* `SnapshotStore.step` — the next answer of the store to a call, or the row of a call.
* `Addressed` — the objects are the contents of calls, each under the key of its call.

## Main results

* `getSnapshot_of_returned` — a path that was returned reads the content back, from then on.

## Design

The store may answer any error to a request. It only says that an object is there if it is.
-/

namespace VCBrain

/-! ## The calls -/

/-- An object of the bucket. -/
structure StoredObject where
  body : List UInt8
  contentType : Str

/-- The arguments of `put_snapshot`. -/
structure PutRequest where
  content : List UInt8
  contentType : Str
  sourceType : Str

/-- Where a call of `put_snapshot` is. -/
inductive PutCall where
  /-- The call asks for the head of the object. -/
  | heading
  /-- The object is missing, and the call stores it. -/
  | putting
  | returned (contentHash storagePath : Str)
  | raised

/-- The columns of a snapshot row that come from the store. -/
structure SnapshotRef where
  sourceType : Str
  contentHash : Str
  storagePath : Str

/-- The objects, the calls `C` of `put_snapshot`, and the rows. -/
structure SnapshotStore (C : Type) where
  objects : Str → Option StoredObject := fun _ => none
  calls : C → PutCall := fun _ => .heading
  rows : List SnapshotRef := []

/-- The store answers a call, or the row of a call is written. -/
inductive PutEvent (C : Type) where
  | head (call : C) (reply : BucketReply)
  | put (call : C)
  /-- The call has failed, and the store may have taken the object. -/
  | putFailed (call : C) (taken : Bool)
  | record (call : C)

section Calls

variable (sha256 : List UInt8 → Str)

/-- `storage_path`: the key of the content. -/
def PutRequest.path (r : PutRequest) : Str := r.sourceType ++ '/' :: sha256 r.content

/-- The object that a call stores. -/
def PutRequest.object (r : PutRequest) : StoredObject := ⟨r.content, r.contentType⟩

variable {C : Type} [DecidableEq C] (request : C → PutRequest)

namespace SnapshotStore

variable (st : SnapshotStore C)

/-- `get_snapshot`: the content under the path. -/
def getSnapshot (storagePath : Str) : Option (List UInt8) :=
  (st.objects storagePath).map StoredObject.body

/-- The state in which a call has got to a point. -/
def putCall (call : C) (stage : PutCall) : SnapshotStore C :=
  { st with calls := Function.update st.calls call stage }

/-- The state in which an object is stored. -/
def store (key : Str) (o : StoredObject) : SnapshotStore C :=
  { st with objects := Function.update st.objects key (some o) }

/-- The end of a call. -/
def complete (call : C) : SnapshotStore C :=
  st.putCall call (.returned (sha256 (request call).content) ((request call).path sha256))

/-- The state after an event, unless it is not possible. -/
def step : PutEvent C → Option (SnapshotStore C)
  | .head call reply =>
    match st.calls call, reply with
    | .heading, .ok =>
      if (st.objects ((request call).path sha256)).isSome then
        some (st.complete sha256 request call)
      else none
    | .heading, .clientError code =>
      if code = "404" then some (st.putCall call .putting) else some (st.putCall call .raised)
    | .heading, .raises _ => some (st.putCall call .raised)
    | _, _ => none
  | .put call =>
    match st.calls call with
    | .putting =>
      some ((st.store ((request call).path sha256) (request call).object).complete
        sha256 request call)
    | _ => none
  | .putFailed call taken =>
    match st.calls call with
    | .putting =>
      let st' := if taken then st.store ((request call).path sha256) (request call).object else st
      some (st'.putCall call .raised)
    | _ => none
  | .record call =>
    match st.calls call with
    | .returned contentHash storagePath =>
      some { st with rows := st.rows ++ [⟨(request call).sourceType, contentHash, storagePath⟩] }
    | _ => none

end SnapshotStore

end Calls

section Frame

variable {C : Type} {st : SnapshotStore C}

@[simp] lemma SnapshotStore.store_objects_self {key : Str} {o : StoredObject} :
    (st.store key o).objects key = some o := Function.update_self ..

@[simp] lemma SnapshotStore.store_objects_of_ne {key key' : Str} {o : StoredObject}
    (h : key' ≠ key) : (st.store key o).objects key' = st.objects key' := Function.update_of_ne h ..

variable [DecidableEq C] {c d : C} {stage : PutCall}

@[simp] lemma SnapshotStore.putCall_self : (st.putCall c stage).calls c = stage :=
  Function.update_self ..

@[simp] lemma SnapshotStore.putCall_of_ne (h : d ≠ c) : (st.putCall c stage).calls d = st.calls d :=
  Function.update_of_ne h ..

end Frame

/-! ## What is stored under a key -/

section Addressed

variable {sha256 : List UInt8 → Str} {C : Type} [DecidableEq C] {request : C → PutRequest}

/-- A key tells the source type and the hash. -/
lemma path_inj (hhex : ∀ content, '/' ∉ sha256 content) {r q : PutRequest}
    (h : r.path sha256 = q.path sha256) : sha256 r.content = sha256 q.content := by
  have hsuffix : ∀ {s t a b : Str}, '/' ∉ a → '/' ∉ b → s ++ '/' :: a = t ++ '/' :: b → a = b := by
    intro s t a b ha hb heq
    have hreverse := congrArg (fun l => (l.reverse.takeWhile (· ≠ '/')).reverse) heq
    have hcut : ∀ {u c : Str}, '/' ∉ c →
        ((u ++ '/' :: c).reverse.takeWhile (· ≠ '/')).reverse = c := by
      intro u c hc
      rw [List.reverse_append, List.reverse_cons, List.append_assoc,
        List.takeWhile_append_of_pos]
      · simp
      · intro d hd
        simp only [decide_eq_true_eq]
        rintro rfl
        exact hc (List.mem_reverse.mp hd)
    rwa [hcut ha, hcut hb] at hreverse
  exact hsuffix (hhex _) (hhex _) h

/-- Every object is the content of a call under its key; what a call has returned, and what a row
has recorded, is there. -/
structure Addressed (sha256 : List UInt8 → Str) (request : C → PutRequest) (st : SnapshotStore C) :
    Prop where
  objects : ∀ key o, st.objects key = some o →
    ∃ c, key = (request c).path sha256 ∧ o.body = (request c).content
  returned : ∀ c contentHash storagePath, st.calls c = .returned contentHash storagePath →
    contentHash = sha256 (request c).content ∧ storagePath = (request c).path sha256 ∧
      (st.objects storagePath).isSome
  rows : ∀ row ∈ st.rows, ∃ c, row = ⟨(request c).sourceType, sha256 (request c).content,
    (request c).path sha256⟩ ∧ (st.objects row.storagePath).isSome

variable {st st' : SnapshotStore C} {c : C}

omit [DecidableEq C] in
lemma addressed_start : Addressed sha256 request ({} : SnapshotStore C) where
  objects _ _ h := by cases h
  returned _ _ _ h := by cases h
  rows _ h := by cases h

omit [DecidableEq C] in
/-- The object that a call stores keeps the rest of the objects there. -/
lemma Addressed.store (h : Addressed sha256 request st) :
    Addressed sha256 request (st.store ((request c).path sha256) (request c).object) := by
  have hkeep : ∀ key, (st.objects key).isSome →
      ((st.store ((request c).path sha256) (request c).object).objects key).isSome := by
    intro key hkey
    by_cases heq : key = (request c).path sha256
    · subst heq
      simp
    · rwa [SnapshotStore.store_objects_of_ne heq]
  refine ⟨fun key o ho => ?_, fun d contentHash storagePath hd => ?_, fun row hrow => ?_⟩
  · by_cases heq : key = (request c).path sha256
    · subst heq
      rw [SnapshotStore.store_objects_self, Option.some.injEq] at ho
      exact ⟨c, rfl, by rw [← ho]; rfl⟩
    · rw [SnapshotStore.store_objects_of_ne heq] at ho
      exact h.objects key o ho
  · obtain ⟨hhash, hpath, hsome⟩ := h.returned d contentHash storagePath hd
    exact ⟨hhash, hpath, hkeep _ hsome⟩
  · obtain ⟨d, hd, hsome⟩ := h.rows row hrow
    exact ⟨d, hd, hkeep _ hsome⟩

/-- A call that has not returned keeps the invariant. -/
lemma Addressed.putCall (h : Addressed sha256 request st) {stage : PutCall}
    (hstage : ∀ contentHash storagePath, stage = .returned contentHash storagePath →
      contentHash = sha256 (request c).content ∧ storagePath = (request c).path sha256 ∧
        (st.objects storagePath).isSome) :
    Addressed sha256 request (st.putCall c stage) := by
  refine ⟨h.objects, fun d contentHash storagePath hd => ?_, h.rows⟩
  by_cases heq : d = c
  · subst heq
    rw [SnapshotStore.putCall_self] at hd
    exact hstage contentHash storagePath hd
  · rw [SnapshotStore.putCall_of_ne heq] at hd
    exact h.returned d contentHash storagePath hd

lemma Addressed.complete (h : Addressed sha256 request st)
    (hsome : (st.objects ((request c).path sha256)).isSome) :
    Addressed sha256 request (st.complete sha256 request c) := by
  refine h.putCall fun contentHash storagePath heq => ?_
  obtain ⟨rfl, rfl⟩ := PutCall.returned.inj heq
  exact ⟨rfl, rfl, hsome⟩

/-- Every event keeps the invariant. -/
lemma Addressed.step (h : Addressed sha256 request st) {e : PutEvent C}
    (hstep : st.step sha256 request e = some st') : Addressed sha256 request st' := by
  cases e with
  | head call reply =>
    simp only [SnapshotStore.step] at hstep
    split at hstep
    · split_ifs at hstep with hsome
      cases hstep
      exact h.complete hsome
    · split_ifs at hstep <;> cases hstep
      · exact h.putCall (by simp)
      · exact h.putCall (by simp)
    · cases hstep
      exact h.putCall (by simp)
    · cases hstep
  | put call =>
    simp only [SnapshotStore.step] at hstep
    split at hstep
    · cases hstep
      exact h.store.complete (by simp)
    · cases hstep
  | putFailed call taken =>
    simp only [SnapshotStore.step] at hstep
    split at hstep
    · cases hstep
      split_ifs
      · exact h.store.putCall (by simp)
      · exact h.putCall (by simp)
    · cases hstep
  | record call =>
    simp only [SnapshotStore.step] at hstep
    split at hstep
    · next contentHash storagePath hcall =>
      cases hstep
      obtain ⟨rfl, rfl, hsome⟩ := h.returned _ _ _ hcall
      refine ⟨h.objects, h.returned, fun row hrow => ?_⟩
      rcases List.mem_append.mp hrow with hrow | hrow
      · exact h.rows row hrow
      · obtain rfl := List.mem_singleton.mp hrow
        exact ⟨call, rfl, hsome⟩
    · cases hstep

/-- A call that has returned has returned for good. -/
lemma returned_step {contentHash storagePath : Str} {e : PutEvent C}
    (h : st.calls c = .returned contentHash storagePath)
    (hstep : st.step sha256 request e = some st') :
    st'.calls c = .returned contentHash storagePath := by
  have hother : ∀ {d : C} {stage : PutCall} {st : SnapshotStore C},
      st.calls c = .returned contentHash storagePath →
      st.calls d = .heading ∨ st.calls d = .putting →
      (st.putCall d stage).calls c = .returned contentHash storagePath := by
    intro d stage st hc hd
    have hne : c ≠ d := by
      rintro rfl
      rw [hc] at hd
      simp at hd
    rwa [SnapshotStore.putCall_of_ne hne]
  cases e with
  | head call reply =>
    simp only [SnapshotStore.step] at hstep
    split at hstep
    · next hcall =>
      split_ifs at hstep
      cases hstep
      exact hother h (.inl hcall)
    · next hcall =>
      split_ifs at hstep <;> cases hstep <;> exact hother h (.inl hcall)
    · next hcall =>
      cases hstep
      exact hother h (.inl hcall)
    · cases hstep
  | put call =>
    simp only [SnapshotStore.step] at hstep
    split at hstep
    · next hcall =>
      cases hstep
      exact @hother _ _ (st.store _ _) h (.inr hcall)
    · cases hstep
  | putFailed call taken =>
    simp only [SnapshotStore.step] at hstep
    split at hstep
    · next hcall =>
      cases hstep
      split_ifs
      · exact @hother _ _ (st.store _ _) h (.inr hcall)
      · exact hother h (.inr hcall)
    · cases hstep
  | record call =>
    simp only [SnapshotStore.step] at hstep
    split at hstep <;> cases hstep
    exact h

end Addressed

/-! ## Reading back -/

section Reading

variable {sha256 : List UInt8 → Str} {C : Type} {request : C → PutRequest} {st : SnapshotStore C}
  {c : C}

/-- The object under the key of a call has the hash of its content. -/
lemma Addressed.exists_content (h : Addressed sha256 request st)
    (hhex : ∀ content, '/' ∉ sha256 content)
    (hsome : (st.objects ((request c).path sha256)).isSome) :
    ∃ d, st.getSnapshot ((request c).path sha256) = some (request d).content ∧
      sha256 (request d).content = sha256 (request c).content := by
  obtain ⟨o, ho⟩ := Option.isSome_iff_exists.mp hsome
  obtain ⟨d, hpath, hbody⟩ := h.objects _ o ho
  refine ⟨d, ?_, (path_inj hhex hpath).symm⟩
  rw [SnapshotStore.getSnapshot, ho, Option.map_some, hbody]

end Reading

/-- **Snapshots are immutable.** Whatever the calls do and however they fail, the path that a call
has returned reads the content of the call back at every later time, and the path of a row reads a
content with the hash of the row.

**Proof sketch.** An object is always the content of some call under the key of this call, so under
one key there are only contents with one hash. No object is ever removed. -/
theorem getSnapshot_of_returned {sha256 : List UInt8 → Str} {C : Type} [DecidableEq C]
    {request : C → PutRequest} (hhex : ∀ content, '/' ∉ sha256 content)
    (hcollision : ∀ c d, sha256 (request c).content = sha256 (request d).content →
      (request c).content = (request d).content) (before after : List (PutEvent C)) :
    (∀ c contentHash storagePath,
      (History.replay (SnapshotStore.step sha256 request) {} before).calls c =
        .returned contentHash storagePath →
      contentHash = sha256 (request c).content ∧
        (History.replay (SnapshotStore.step sha256 request) {} (before ++ after)).getSnapshot
          storagePath = some (request c).content) ∧
    ∀ row ∈ (History.replay (SnapshotStore.step sha256 request) {} (before ++ after)).rows,
      ∃ content, (History.replay (SnapshotStore.step sha256 request) {}
        (before ++ after)).getSnapshot row.storagePath = some content ∧
          sha256 content = row.contentHash := by
  set st := History.replay (SnapshotStore.step sha256 request) {} (before ++ after) with hst
  have haddressed : Addressed sha256 request st :=
    History.replay_invariant _ (fun _ _ _ h => h.step) addressed_start (before ++ after)
  constructor
  · intro c contentHash storagePath hc
    have hlater : st.calls c = .returned contentHash storagePath := by
      rw [hst, History.replay_append]
      exact History.replay_invariant _ (fun _ _ _ h => returned_step h) hc after
    obtain ⟨rfl, rfl, hsome⟩ := haddressed.returned c _ _ hlater
    obtain ⟨d, hread, hhash⟩ := haddressed.exists_content hhex hsome
    exact ⟨rfl, hread.trans (congrArg some (hcollision d c hhash))⟩
  · intro row hrow
    obtain ⟨c, rfl, hsome⟩ := haddressed.rows row hrow
    obtain ⟨d, hread, hhash⟩ := haddressed.exists_content hhex hsome
    exact ⟨_, hread, hhash⟩

/-- Two calls with the empty content, which both find that the object is missing. -/
private def emptyPuts : List (PutEvent Bool) :=
  [.head true (.clientError "404".toList), .head false (.clientError "404".toList), .put true,
    .put false]

/-- The digest of the empty content. -/
private def emptySha256 : List UInt8 → Str :=
  fun _ => "e3b0c44298fc1c149afbf4c8996fb92427ae41e4649b934ca495991b7852b855"

/-- The empty content is read back. -/
theorem getSnapshot_of_returned_empty :
    (History.replay (SnapshotStore.step emptySha256 fun _ => ⟨[], "text/html", "webpage"⟩) {}
      emptyPuts).getSnapshot
        "webpage/e3b0c44298fc1c149afbf4c8996fb92427ae41e4649b934ca495991b7852b855" = some [] :=
  ((getSnapshot_of_returned (fun _ => by unfold emptySha256; decide) (fun _ _ _ => rfl)
    emptyPuts []).1 true _ _ rfl).2

end VCBrain

import Mathlib.Algebra.Order.Group.Int
import Mathlib.Logic.Function.Basic
import VCBrain.Foundation.Guarded
import VCBrain.Foundation.Optimistic

set_option relaxedAutoImplicit false
set_option autoImplicit false

/-!
# Discovery pages

Workers that discover with one query share the tracker of its result pages. A worker reserves the
page after the one that the tracker points at, from page 10 on page 1, and returns it when the
provider fails, unless the tracker has moved on.

## Main definitions

* `nextDiscoveryPage`, `Call.queue` — what `get_discovery_page` and `rollback_discovery_page` do
  with the value they read.
* `PageSystem.step` — one `WATCH`, `GET`, `MULTI` or `EXEC` of a worker.
* `NineOthers` — at most nine reservations started since any that is outstanding.
* `PagesSafe` — no two workers hold one page.

## Main results

* `Positions.step` — every step keeps the positions of the reservations.
* `pagesSafe_replay` — under every schedule pages are safe.

## Design

The state also counts the reservations, for `NineOthers`; no worker reads the count. A worker that
stops in the middle takes no further step. A refused `EXEC` raises `WatchError`, after the third of
which `get_discovery_page` raises and `rollback_discovery_page` returns.
-/

namespace VCBrain

open Optimistic

/-! ## The tracker -/

/-- What is stored under the key of the tracker: nothing, a text that is no number, or a number. -/
inductive RawPage where
  | absent
  | unreadable
  | number (n : ℤ)
deriving DecidableEq

/-- `int(current_raw) if current_raw is not None else 0`; `none` is a `ValueError`. -/
def RawPage.current? : RawPage → Option ℤ
  | .absent => some 0
  | .unreadable => none
  | .number n => some n

/-- `_MAX_DISCOVERY_PAGE`. -/
def maxDiscoveryPage : ℤ := 10

/-- The page that `get_discovery_page` reserves. -/
def nextDiscoveryPage (raw : RawPage) : ℤ :=
  let page := raw.current?.getD 0 + 1
  if maxDiscoveryPage < page then 1 else page

/-! ## Workers -/

/-- The function a worker runs. -/
inductive Call where
  | getDiscoveryPage
  | rollbackDiscoveryPage (page : ℤ)
deriving DecidableEq

/-- The stages of a worker. -/
inductive Worker where
  | idle
  | holding (page : ℤ)
  | running (call : Call) (attempt : ℕ) (tx : Transaction RawPage)

/-- The page of an outstanding reservation: it lasts until the worker completes or its rollback
returns. -/
def Worker.page? : Worker → Option ℤ
  | .holding page => some page
  | .running (.rollbackDiscoveryPage page) _ _ => some page
  | _ => none

/-- The value a function queues after `MULTI`; `none` is a rollback that returns instead. -/
def Call.queue (value : RawPage) : Call → Option RawPage
  | .getDiscoveryPage => some (.number (nextDiscoveryPage value))
  | .rollbackDiscoveryPage page =>
    if value.current? = some page then some (.number (max 0 (page - 1))) else none

/-- What follows the value read. -/
def Call.multi (call : Call) (attempt since : ℕ) (value : RawPage) : Worker :=
  match call.queue value with
  | some new => .running call attempt (.queued since value new)
  | none => .idle

/-- What follows a `WatchError`. -/
def Call.retry (call : Call) (attempt : ℕ) : Worker :=
  if attempt + 1 < 3 then .running call (attempt + 1) .opened else .idle

/-- What follows an `EXEC` that is executed. -/
def Call.done (value : RawPage) : Call → Worker
  | .getDiscoveryPage => .holding (nextDiscoveryPage value)
  | .rollbackDiscoveryPage _ => .idle

/-! ## The system -/

/-- The tracker, the workers, the number of reservations so far, and for each worker the number of
reservations after its latest. -/
structure PageSystem where
  tracker : Register RawPage
  worker : ℕ → Worker := fun _ => .idle
  reservations : ℕ := 0
  reservedAt : ℕ → ℕ := fun _ => 0

/-- The steps of worker `w`. -/
inductive PageEvent where
  | reserve (w : ℕ)
  | watch (w : ℕ)
  | get (w : ℕ)
  | multi (w : ℕ)
  | exec (w : ℕ) (aborted : Bool)
  | complete (w : ℕ)
  | fail (w : ℕ)

namespace PageSystem

/-- A step of a worker that leaves the tracker alone. -/
def set (s : PageSystem) (w : ℕ) (worker : Worker) : PageSystem :=
  { s with worker := Function.update s.worker w worker }

/-- The transaction of a worker is executed. -/
def executed (s : PageSystem) (w : ℕ) (tracker : Register RawPage) (value : RawPage)
    (call : Call) : PageSystem :=
  let s := { s.set w (call.done value) with tracker := tracker }
  match call with
  | .getDiscoveryPage =>
    { s with
      reservations := s.reservations + 1
      reservedAt := Function.update s.reservedAt w (s.reservations + 1) }
  | .rollbackDiscoveryPage _ => s

/-- One step; a step that its worker is not at is not possible. -/
def step (s : PageSystem) : PageEvent → Option PageSystem
  | .reserve w =>
    match s.worker w with
    | .idle => some (s.set w (.running .getDiscoveryPage 0 .opened))
    | _ => none
  | .watch w =>
    match s.worker w with
    | .running call attempt .opened =>
      some (s.set w (.running call attempt (.watched s.tracker.writes)))
    | _ => none
  | .get w =>
    match s.worker w with
    | .running call attempt (.watched since) =>
      some (s.set w (.running call attempt (.read since s.tracker.value)))
    | _ => none
  | .multi w =>
    match s.worker w with
    | .running call attempt (.read since value) => some (s.set w (call.multi attempt since value))
    | _ => none
  | .exec w aborted =>
    match s.worker w with
    | .running call attempt (.queued since value new) =>
      match s.tracker.exec since aborted new with
      | some tracker => some (s.executed w tracker value call)
      | none => some (s.set w (call.retry attempt))
    | _ => none
  | .complete w =>
    match s.worker w with
    | .holding _ => some (s.set w .idle)
    | _ => none
  | .fail w =>
    match s.worker w with
    | .holding page => some (s.set w (.running (.rollbackDiscoveryPage page) 0 .opened))
    | _ => none

/-- No worker has begun. -/
def initial (raw : RawPage) : PageSystem where
  tracker := ⟨raw, 0⟩

/-- Worker `w` has an outstanding reservation of a page. -/
def Holds (s : PageSystem) (w : ℕ) (page : ℤ) : Prop := (s.worker w).page? = some page

instance (s : PageSystem) (w : ℕ) (page : ℤ) : Decidable (s.Holds w page) :=
  inferInstanceAs (Decidable ((s.worker w).page? = some page))

/-- Since each outstanding reservation at most nine others started. -/
def NineOthers (s : PageSystem) : Prop :=
  ∀ w page, s.Holds w page → s.reservations ≤ s.reservedAt w + 9

/-- What workers rely on: reserved pages are distinct pages between 1 and 10, and a rollback that
is executed makes no page available that another worker holds. -/
structure PagesSafe (s : PageSystem) : Prop where
  distinct : ∀ w w' page, s.Holds w page → s.Holds w' page → w = w'
  inRange : ∀ w page, s.Holds w page → 1 ≤ page ∧ page ≤ maxDiscoveryPage
  rollback : ∀ w attempt tx page aborted s',
    s.worker w = .running (.rollbackDiscoveryPage page) attempt tx →
    s.step (.exec w aborted) = some s' → s'.tracker.writes ≠ s.tracker.writes →
    ∀ w' held, s'.Holds w' held → nextDiscoveryPage s'.tracker.value ≠ held

end PageSystem

/-! ## Positions -/

section Positions

open PageSystem

variable {s s' : PageSystem} {N : ℕ} {pos : ℕ → ℕ} {w : ℕ}

/-- **The abstract pages.** Pages are positions on an unbounded tape, counted modulo 10. The tracker
stands at position `N`, and each outstanding reservation at a position of its own up to there, not
further behind than reservations started since. Workers know what they have read. -/
structure Positions (s : PageSystem) (N : ℕ) (pos : ℕ → ℕ) : Prop where
  next : nextDiscoveryPage s.tracker.value = (N % 10 : ℕ) + 1
  behind : ∀ w page, s.Holds w page →
    1 ≤ pos w ∧ pos w ≤ N ∧ page = ((pos w - 1) % 10 : ℕ) + 1 ∧
      N + s.reservedAt w ≤ pos w + s.reservations
  injective : ∀ w w' page page', s.Holds w page → s.Holds w' page' → pos w = pos w' → w = w'
  sound : ∀ w call attempt tx, s.worker w = .running call attempt tx → tx.Sound s.tracker
  queued : ∀ w call attempt since value new,
    s.worker w = .running call attempt (.queued since value new) → call.queue value = some new

lemma worker_set (x : Worker) (v : ℕ) :
    (s.set w x).worker v = if v = w then x else s.worker v := Function.update_apply ..

lemma worker_executed (tracker : Register RawPage) (value : RawPage) (call : Call) (v : ℕ) :
    (s.executed w tracker value call).worker v =
      if v = w then call.done value else s.worker v := by
  cases call <;> exact worker_set ..

lemma tracker_executed (tracker : Register RawPage) (value : RawPage) (call : Call) :
    (s.executed w tracker value call).tracker = tracker := by
  cases call <;> rfl

lemma holds_set {x : Worker} {v : ℕ} {page : ℤ} :
    (s.set w x).Holds v page ↔ if v = w then x.page? = some page else s.Holds v page := by
  unfold Holds
  rw [worker_set]
  split_ifs <;> rfl

/-- A step that leaves the tracker alone and reserves nothing keeps the positions. -/
lemma Positions.set (h : Positions s N pos) {x : Worker}
    (hpage : ∀ page, x.page? = some page → s.Holds w page)
    (hsound : ∀ call attempt tx, x = .running call attempt tx → tx.Sound s.tracker)
    (hqueued : ∀ call attempt since value new, x = .running call attempt (.queued since value new) →
      call.queue value = some new) : Positions (s.set w x) N pos := by
  have hholds : ∀ v page, (s.set w x).Holds v page → s.Holds v page := by
    intro v page hv
    rw [holds_set] at hv
    split_ifs at hv with heq
    · exact heq ▸ hpage page hv
    · exact hv
  have hworker : ∀ v y, (s.set w x).worker v = y → (v = w ∧ x = y) ∨ s.worker v = y := by
    intro v y hv
    rw [worker_set] at hv
    split_ifs at hv with heq
    · exact Or.inl ⟨heq, hv⟩
    · exact Or.inr hv
  refine ⟨h.next, fun v page hv => h.behind v page (hholds v page hv), ?_, ?_, ?_⟩
  · exact fun v v' page page' hv hv' => h.injective v v' page page' (hholds _ _ hv) (hholds _ _ hv')
  · intro v call attempt tx hv
    rcases hworker v _ hv with ⟨-, hx⟩ | hv
    · exact hsound call attempt tx hx
    · exact h.sound v call attempt tx hv
  · intro v call attempt since value new hv
    rcases hworker v _ hv with ⟨-, hx⟩ | hv
    · exact hqueued call attempt since value new hx
    · exact h.queued v call attempt since value new hv

/-- A reserved page is a page. -/
lemma Positions.inRange (h : Positions s N pos) {page : ℤ} (hw : s.Holds w page) :
    1 ≤ page ∧ page ≤ maxDiscoveryPage := by
  obtain ⟨-, -, rfl, -⟩ := h.behind w page hw
  have hmod : (pos w - 1) % 10 < 10 := Nat.mod_lt _ (by decide)
  unfold maxDiscoveryPage
  omega

/-- With at most nine others since, an outstanding reservation is less than ten positions behind. -/
lemma Positions.lt_ten (h : Positions s N pos) (hnine : NineOthers s) {page : ℤ}
    (hw : s.Holds w page) : N ≤ pos w + 9 := by
  have hothers := hnine w page hw
  have hbehind := (h.behind w page hw).2.2.2
  omega

/-- No two workers hold one page. -/
lemma Positions.distinct (h : Positions s N pos) (hnine : NineOthers s) {w' : ℕ} {page : ℤ}
    (hw : s.Holds w page) (hw' : s.Holds w' page) : w = w' := by
  obtain ⟨hpos, hle, hpage, -⟩ := h.behind w page hw
  obtain ⟨hpos', hle', hpage', -⟩ := h.behind w' page hw'
  have hten := h.lt_ten hnine hw
  have hten' := h.lt_ten hnine hw'
  refine h.injective w w' page page hw hw' ?_
  omega

/-! ## Steps that write -/

lemma nextDiscoveryPage_number {n : ℤ} (h1 : 0 ≤ n) (h2 : n ≤ maxDiscoveryPage) :
    nextDiscoveryPage (.number n) = n % 10 + 1 := by
  unfold nextDiscoveryPage maxDiscoveryPage at *
  simp only [RawPage.current?, Option.getD_some]
  split_ifs <;> omega

/-- The tracker after a reservation points at the page of the next position. -/
lemma nextDiscoveryPage_reserved {raw : RawPage} (h : nextDiscoveryPage raw = (N % 10 : ℕ) + 1) :
    nextDiscoveryPage (.number (nextDiscoveryPage raw)) = ((N + 1) % 10 : ℕ) + 1 := by
  rw [h, nextDiscoveryPage_number (by omega) (by unfold maxDiscoveryPage; omega)]
  omega

/-- A reservation takes the next position. -/
lemma Positions.reserved (h : Positions s N pos) {attempt since : ℕ} {value new : RawPage}
    {aborted : Bool} {tracker : Register RawPage}
    (hw : s.worker w = .running .getDiscoveryPage attempt (.queued since value new))
    (hexec : s.tracker.exec since aborted new = some tracker) :
    Positions (s.executed w tracker value .getDiscoveryPage) (N + 1)
      (Function.update pos w (N + 1)) := by
  obtain ⟨-, rfl⟩ := Register.exec_eq_some hexec
  have hvalue : value = s.tracker.value := (h.sound w _ _ _ hw).value_eq hexec
  have hnew : new = .number (nextDiscoveryPage value) :=
    (Option.some.inj (h.queued w _ _ _ _ _ hw)).symm
  have hpage : nextDiscoveryPage value = (N % 10 : ℕ) + 1 := hvalue ▸ h.next
  have hheld : ∀ v page, (s.executed w (s.tracker.write new) value .getDiscoveryPage).Holds v page →
      (v = w ∧ page = nextDiscoveryPage value) ∨ (v ≠ w ∧ s.Holds v page) := by
    intro v page hv
    unfold Holds at hv
    rw [worker_executed] at hv
    split_ifs at hv with heq
    · exact Or.inl ⟨heq, (Option.some.inj hv).symm⟩
    · exact Or.inr ⟨heq, hv⟩
  have hother : ∀ v call attempt tx,
      (s.executed w (s.tracker.write new) value .getDiscoveryPage).worker v =
        .running call attempt tx → s.worker v = .running call attempt tx := by
    intro v call attempt tx hv
    rw [worker_executed] at hv
    split_ifs at hv
    · cases hv
    · exact hv
  refine ⟨?_, ?_, ?_, ?_, ?_⟩
  · rw [hnew]
    exact nextDiscoveryPage_reserved hpage
  · intro v page hv
    rcases hheld v page hv with ⟨rfl, rfl⟩ | ⟨hne, hv⟩
    · simp only [executed, PageSystem.set, Function.update_self, hpage]
      omega
    · obtain ⟨hpos, hle, hv, hbehind⟩ := h.behind v page hv
      simp only [executed, PageSystem.set, Function.update_of_ne hne]
      omega
  · intro v v' page page' hv hv' heq
    rcases hheld v page hv with ⟨rfl, -⟩ | ⟨hne, hold⟩ <;>
      rcases hheld v' page' hv' with ⟨rfl, -⟩ | ⟨hne', hold'⟩
    · rfl
    · rw [Function.update_self, Function.update_of_ne hne'] at heq
      have hle := (h.behind v' page' hold').2.1
      omega
    · rw [Function.update_self, Function.update_of_ne hne] at heq
      have hle := (h.behind v page hold).2.1
      omega
    · rw [Function.update_of_ne hne, Function.update_of_ne hne'] at heq
      exact h.injective v v' page page' hold hold' heq
  · intro v call attempt tx hv
    exact (h.sound v call attempt tx (hother v call attempt tx hv)).write _
  · exact fun v call attempt since value new hv =>
      h.queued v call attempt since value new (hother v call attempt _ hv)

/-- A rollback that is executed finds the tracker at the position of its own reservation. -/
lemma Positions.at_rollback (h : Positions s N pos) (hnine : NineOthers s) {attempt since : ℕ}
    {value new : RawPage} {page : ℤ} {aborted : Bool} {tracker : Register RawPage}
    (hw : s.worker w = .running (.rollbackDiscoveryPage page) attempt (.queued since value new))
    (hexec : s.tracker.exec since aborted new = some tracker) :
    N = pos w ∧ new = .number (page - 1) := by
  have hvalue : value = s.tracker.value := (h.sound w _ _ _ hw).value_eq hexec
  have hholds : s.Holds w page := by
    unfold Holds
    rw [hw]
    rfl
  obtain ⟨hlow, hhigh⟩ := h.inRange hholds
  have hqueue : (if value.current? = some page then some (RawPage.number (max 0 (page - 1)))
      else none) = some new := h.queued w _ _ _ _ _ hw
  split_ifs at hqueue with hcurrent
  have hnext := h.next
  rw [← hvalue, nextDiscoveryPage, hcurrent] at hnext
  obtain ⟨hpos, hle, hpage, -⟩ := h.behind w page hholds
  have hten := h.lt_ten hnine hholds
  unfold maxDiscoveryPage at hnext hhigh
  refine ⟨?_, ?_⟩
  · simp only [Option.getD_some] at hnext
    split_ifs at hnext <;> omega
  · rw [← Option.some.inj hqueue, max_eq_right (by omega)]

/-- A rollback gives its own position back. -/
lemma Positions.rolledBack (h : Positions s N pos) (hnine : NineOthers s) {attempt since : ℕ}
    {value new : RawPage} {page : ℤ} {aborted : Bool} {tracker : Register RawPage}
    (hw : s.worker w = .running (.rollbackDiscoveryPage page) attempt (.queued since value new))
    (hexec : s.tracker.exec since aborted new = some tracker) :
    Positions (s.executed w tracker value (.rollbackDiscoveryPage page)) (N - 1) pos := by
  obtain ⟨hN, rfl⟩ := h.at_rollback hnine hw hexec
  obtain ⟨-, rfl⟩ := Register.exec_eq_some hexec
  have hholds : s.Holds w page := by
    unfold Holds
    rw [hw]
    rfl
  obtain ⟨hlow, hhigh⟩ := h.inRange hholds
  obtain ⟨hpos, -, hpage, -⟩ := h.behind w page hholds
  have hidle : Positions (s.set w .idle) N pos := h.set nofun nofun nofun
  have hne : ∀ v p, (s.set w .idle).Holds v p → v ≠ w := by
    rintro v p hv rfl
    rw [holds_set, if_pos rfl] at hv
    cases hv
  refine ⟨?_, ?_, hidle.injective, ?_, hidle.queued⟩
  · change nextDiscoveryPage (.number (page - 1)) = _
    rw [nextDiscoveryPage_number (by omega) (by omega)]
    omega
  · intro v p hv
    have hold : s.Holds v p := by
      have hv' := hv
      change (s.set w .idle).Holds v p at hv'
      rwa [holds_set, if_neg (hne v p hv)] at hv'
    obtain ⟨hposv, hle, hpagev, hbehind⟩ := hidle.behind v p hv
    have hdiff : pos v ≠ pos w := fun heq => hne v p hv (h.injective v w p page hold hholds heq)
    refine ⟨hposv, by omega, hpagev, ?_⟩
    change N - 1 + s.reservedAt v ≤ pos v + s.reservations
    change N + s.reservedAt v ≤ pos v + s.reservations at hbehind
    omega
  · exact fun v call attempt tx hv => (hidle.sound v call attempt tx hv).write _

/-- After a rollback the next page is the one it gave back, which no other worker holds. -/
lemma Positions.rollback_safe (h : Positions s N pos) (hnine : NineOthers s) {attempt : ℕ}
    {tx : Transaction RawPage} {page : ℤ} {aborted : Bool}
    (hw : s.worker w = .running (.rollbackDiscoveryPage page) attempt tx)
    (hstep : s.step (.exec w aborted) = some s') (hwrites : s'.tracker.writes ≠ s.tracker.writes)
    {v : ℕ} {held : ℤ} (hv : s'.Holds v held) : nextDiscoveryPage s'.tracker.value ≠ held := by
  simp only [PageSystem.step, hw] at hstep
  split at hstep
  · next call attempt' since value new heq =>
    cases heq
    split at hstep
    · next tracker hexec =>
      cases hstep
      obtain ⟨hN, rfl⟩ := h.at_rollback hnine hw hexec
      have hholds : s.Holds w page := by
        unfold Holds
        rw [hw]
        rfl
      obtain ⟨hlow, hhigh⟩ := h.inRange hholds
      unfold Holds at hv
      rw [worker_executed] at hv
      split_ifs at hv with hvw
      · cases hv
      · rw [tracker_executed, (Register.exec_eq_some hexec).2, Register.write_value,
          nextDiscoveryPage_number (by omega) (by omega)]
        rintro rfl
        have hpage : (page - 1) % 10 + 1 = page := by
          unfold maxDiscoveryPage at hhigh
          omega
        rw [hpage] at hv
        exact hvw (h.distinct hnine hv hholds)
    · cases hstep
      exact absurd rfl hwrites
  · cases hstep

/-- Positions say that pages are safe. -/
lemma Positions.pagesSafe (h : Positions s N pos) (hnine : NineOthers s) : PagesSafe s where
  distinct _ _ _ hw hw' := h.distinct hnine hw hw'
  inRange _ _ hw := h.inRange hw
  rollback _ _ _ _ _ _ hw hstep hwrites _ _ hv := h.rollback_safe hnine hw hstep hwrites hv

/-! ## Every step -/

/-- **One step.** With at most nine others since, every step keeps the positions. -/
lemma Positions.step (h : Positions s N pos) (hnine : NineOthers s) {e : PageEvent}
    (hstep : s.step e = some s') : ∃ N' pos', Positions s' N' pos' := by
  have hrunning : ∀ {v call attempt tx attempt' tx'}, s.worker v = .running call attempt tx →
      ∀ page, (Worker.running call attempt' tx').page? = some page → s.Holds v page := by
    intro v call attempt tx attempt' tx' hv page hpage
    unfold Holds
    rw [hv]
    cases call with
    | getDiscoveryPage => cases hpage
    | rollbackDiscoveryPage page => exact hpage
  cases e with
  | reserve v =>
    simp only [PageSystem.step] at hstep
    split at hstep <;> cases hstep
    exact ⟨N, pos, h.set nofun (by rintro _ _ _ ⟨⟩; trivial) nofun⟩
  | watch v =>
    simp only [PageSystem.step] at hstep
    split at hstep <;> cases hstep
    next call attempt hv =>
    exact ⟨N, pos, h.set (hrunning hv) (by rintro _ _ _ ⟨⟩; exact Transaction.sound_watch) nofun⟩
  | get v =>
    simp only [PageSystem.step] at hstep
    split at hstep <;> cases hstep
    next call attempt since hv =>
    have hsound := (h.sound v _ _ _ hv).get
    exact ⟨N, pos, h.set (hrunning hv) (by rintro _ _ _ ⟨⟩; exact hsound) nofun⟩
  | multi v =>
    simp only [PageSystem.step] at hstep
    split at hstep <;> cases hstep
    next call attempt since value hv =>
    have hsound := h.sound v _ _ _ hv
    unfold Call.multi
    cases hqueue : call.queue value with
    | none => exact ⟨N, pos, h.set nofun nofun nofun⟩
    | some new =>
      refine ⟨N, pos, h.set (hrunning hv) ?_ ?_⟩
      · rintro _ _ _ ⟨⟩
        exact hsound.multi
      · rintro _ _ _ _ _ ⟨⟩
        exact hqueue
  | exec v aborted =>
    simp only [PageSystem.step] at hstep
    split at hstep
    · next call attempt since value new hv =>
      split at hstep <;> cases hstep
      · next tracker hexec =>
        cases call with
        | getDiscoveryPage => exact ⟨_, _, h.reserved hv hexec⟩
        | rollbackDiscoveryPage page => exact ⟨_, _, h.rolledBack hnine hv hexec⟩
      · unfold Call.retry
        split_ifs
        · exact ⟨N, pos, h.set (hrunning hv) (by rintro _ _ _ ⟨⟩; trivial) nofun⟩
        · exact ⟨N, pos, h.set nofun nofun nofun⟩
    · cases hstep
  | complete v =>
    simp only [PageSystem.step] at hstep
    split at hstep <;> cases hstep
    exact ⟨N, pos, h.set nofun nofun nofun⟩
  | fail v =>
    simp only [PageSystem.step] at hstep
    split at hstep <;> cases hstep
    next page hv =>
    refine ⟨N, pos, h.set (fun p hp => ?_) (by rintro _ _ _ ⟨⟩; trivial) nofun⟩
    unfold Holds
    rw [hv]
    exact hp

/-- Nothing is reserved at the beginning. -/
lemma positions_initial {raw : RawPage} (hraw : 0 ≤ raw.current?.getD 0) :
    ∃ N, Positions (initial raw) N fun _ => 0 := by
  have hnext : nextDiscoveryPage raw =
      if maxDiscoveryPage < raw.current?.getD 0 + 1 then 1 else raw.current?.getD 0 + 1 := rfl
  by_cases hlast : maxDiscoveryPage < raw.current?.getD 0 + 1
  · exact ⟨0, hnext.trans (if_pos hlast), nofun, nofun, nofun, nofun⟩
  · refine ⟨(raw.current?.getD 0).toNat, ?_, nofun, nofun, nofun, nofun⟩
    change nextDiscoveryPage raw = _
    rw [hnext, if_neg hlast]
    unfold maxDiscoveryPage at hlast
    omega

end Positions

/-! ## Every schedule -/

/-- The state after the steps of a schedule; steps that are not possible are skipped. -/
def PageSystem.run (raw : RawPage) (es : List PageEvent) : PageSystem :=
  History.replay PageSystem.step (PageSystem.initial raw) es

/-- **Pages under every schedule.** From a tracker that does not hold a negative number, as long as
at most nine other reservations start while one is outstanding, pages are safe.

**Proof sketch.** A reservation takes the next position of the tape. A rollback that is executed
finds its own page at the tracker, and no two positions less than ten apart have one page, so it
gives the last position back. -/
theorem pagesSafe_run {raw : RawPage} (hraw : 0 ≤ raw.current?.getD 0) (es : List PageEvent)
    (hnine : ∀ before after, es = before ++ after → (PageSystem.run raw before).NineOthers) :
    (PageSystem.run raw es).PagesSafe := by
  have hpositions : ∀ (es : List PageEvent) (s : PageSystem), (∃ N pos, Positions s N pos) →
      (∀ before after, es = before ++ after →
        (History.replay PageSystem.step s before).NineOthers) →
      ∃ N pos, Positions (History.replay PageSystem.step s es) N pos := by
    intro es
    induction es with
    | nil => exact fun s hs _ => hs
    | cons e es ih =>
      intro s hs hnine
      refine ih _ ?_ fun before after heq => hnine (e :: before) after (by rw [heq]; rfl)
      obtain ⟨N, pos, hpos⟩ := hs
      cases hstep : s.step e with
      | none => exact ⟨N, pos, by rwa [History.commit_of_none _ hstep]⟩
      | some u =>
        rw [History.commit_of_some _ hstep]
        exact hpos.step (hnine [] _ rfl) hstep
  obtain ⟨N, hinitial⟩ := positions_initial hraw
  obtain ⟨N, pos, hpos⟩ := hpositions es _ ⟨N, _, hinitial⟩ hnine
  exact hpos.pagesSafe (hnine es [] (List.append_nil es).symm)

/-! ## Short schedules -/

/-- The step asks for the execution of a transaction. -/
def PageEvent.isExec : PageEvent → Bool
  | .exec _ _ => true
  | _ => false

/-- Only executions reserve pages. -/
lemma PageSystem.reservations_step {s s' : PageSystem} {e : PageEvent} (h : s.step e = some s') :
    s'.reservations ≤ s.reservations + if e.isExec then 1 else 0 := by
  cases e with
  | exec v aborted =>
    simp only [PageSystem.step] at h
    split at h
    · next call attempt since value new hv =>
      split at h <;> cases h
      · cases call with
        | getDiscoveryPage => exact Nat.le_refl _
        | rollbackDiscoveryPage page => exact Nat.le_succ _
      · exact Nat.le_succ _
    · cases h
  | _ =>
    simp only [PageSystem.step] at h
    split at h <;> cases h
    exact Nat.le_refl _

/-- A schedule with at most nine executions starts at most nine reservations. -/
lemma PageSystem.nineOthers_of_countP {raw : RawPage} {es : List PageEvent}
    (h : es.countP PageEvent.isExec ≤ 9) (before after : List PageEvent)
    (heq : es = before ++ after) : (PageSystem.run raw before).NineOthers := by
  have hcount : ∀ (es : List PageEvent) (s : PageSystem),
      (History.replay PageSystem.step s es).reservations ≤
        s.reservations + es.countP PageEvent.isExec := by
    intro es
    induction es with
    | nil => exact fun s => Nat.le_refl _
    | cons e es ih =>
      intro s
      rw [History.replay_cons, List.countP_cons]
      refine (ih _).trans ?_
      cases hstep : s.step e with
      | none => rw [History.commit_of_none _ hstep]; omega
      | some u =>
        rw [History.commit_of_some _ hstep]
        have hstep := PageSystem.reservations_step hstep
        omega
  intro w page _
  have hle := hcount before (PageSystem.initial raw)
  have hsplit : before.countP PageEvent.isExec ≤ es.countP PageEvent.isExec := by
    rw [heq, List.countP_append]
    omega
  change (PageSystem.run raw before).reservations ≤ 0 + _ at hle
  omega

/-- The steps of a worker that are not disturbed. -/
def undisturbed (w : ℕ) : List PageEvent := [.watch w, .get w, .multi w, .exec w false]

/-- Two workers reserve, the later one returns its page, and a third reserves it. -/
def returnedPage : List PageEvent :=
  .reserve 0 :: undisturbed 0 ++ .reserve 1 :: undisturbed 1 ++ .fail 1 :: undisturbed 1 ++
    .reserve 2 :: undisturbed 2

/-- Pages are safe after the schedule. -/
theorem pagesSafe_returnedPage : (PageSystem.run .absent returnedPage).PagesSafe :=
  pagesSafe_run (by decide) returnedPage (PageSystem.nineOthers_of_countP (by decide))

/-- Eleven workers reserve, and the last one receives the page that the first one holds. -/
def elevenWorkers : List PageEvent :=
  (List.range 11).flatMap fun w => .reserve w :: undisturbed w

example : (PageSystem.run .absent elevenWorkers).Holds 0 1 ∧
    (PageSystem.run .absent elevenWorkers).Holds 10 1 := by
  decide +kernel

end VCBrain

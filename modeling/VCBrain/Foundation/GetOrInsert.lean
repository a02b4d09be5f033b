import Mathlib.Algebra.BigOperators.Group.Finset.Basic
import Mathlib.Algebra.Order.BigOperators.Group.Finset
import VCBrain.Foundation.ReadCommitted

set_option relaxedAutoImplicit false
set_option autoImplicit false

/-!
# Transactions that get or insert

A transaction goes through the rows it wants one after another. It looks each up by its key, inserts
it if it is missing, and looks it up again if the insertion is refused. What it wants next may
depend on the rows it has found. This file shows that transactions that want rows of the same keys
in the same order can run concurrently under read committed isolation: none fails, they do not
deadlock, all find the same rows, and no key is stored twice.

## Main definitions

* `LookUp` — a query by key.
* `program` — the transactions.
* `Cooperative` — what they have to have in common.
* `Inv` — the invariant of their runs.

## Main results

* `inv_of_executed` — every statement keeps the invariant.
* `Inv.found_eq` — the transactions that are done have found the same rows.
* `Inv.exists_completion` — every run can be continued until all transactions are done.
-/

namespace GetOrInsert

open ReadCommitted

/-! ## The transactions -/

/-- A query for the rows that have the key of a given row. -/
structure LookUp {ρ κ : Type*} (key : ρ → κ) where
  find : ρ → List ρ → Option ρ
  sound : ∀ {row rows r}, find row rows = some r → r ∈ rows ∧ key r = key row
  complete : ∀ {row rows}, find row rows = none → ∀ r ∈ rows, key r ≠ key row

/-- What a transaction is doing about the row it wants next. -/
inductive Doing where
  | looking
  | inserting
  /-- The insertion was refused. -/
  | rereading
  /-- The row that refused the insertion was not found. -/
  | raising
  | failed
  | done
deriving DecidableEq

/-- The rows found so far, and what comes next. -/
structure Stage (ρ : Type*) where
  found : List ρ := []
  doing : Doing := .looking

section Program

variable {T ρ κ : Type*} {key : ρ → κ} (look again : LookUp key) (want : T → List ρ → Option ρ)

/-- The statements about one wanted row. -/
def rowStatement (row : ρ) (found : List ρ) : Doing → Statement ρ Empty (Stage ρ)
  | .looking => .select fun rows =>
    match look.find row rows with
    | some r => { found := found ++ [r] }
    | none => { found := found, doing := .inserting }
  | .inserting => .insert row { found := found ++ [row] } { found := found, doing := .rereading }
  | .rereading => .select fun rows =>
    match again.find row rows with
    | some r => { found := found ++ [r] }
    | none => { found := found, doing := .raising }
  | .raising => .rollback { found := found, doing := .failed }
  | .failed => .stop
  | .done => .stop

/-- A transaction obtains the rows it wants and then commits. -/
def program (t : T) (stage : Stage ρ) : Statement ρ Empty (Stage ρ) :=
  match want t stage.found with
  | some row => rowStatement look again row stage.found stage.doing
  | none => if stage.doing = .done then .stop else .commit { stage with doing := .done }

variable {look again want} {t : T} {stage : Stage ρ} {row : ρ}

lemma program_of_some (h : want t stage.found = some row) :
    program look again want t stage = rowStatement look again row stage.found stage.doing := by
  rw [program, h]

lemma program_of_none (h : want t stage.found = none) :
    program look again want t stage =
      if stage.doing = .done then .stop else .commit { stage with doing := .done } := by
  rw [program, h]

end Program

/-! ## Cooperation -/

section Cooperation

variable {T ρ κ : Type*} (key : ρ → κ) (want : T → List ρ → Option ρ) (initial : List ρ)

/-- The rows a transaction can have found have the keys it wanted. Each was there initially or was
wanted by some transaction. -/
inductive Found : List ρ → Prop
  | nil : Found []
  | initial {found t row r} (hfound : Found found) (hwant : want t found = some row)
      (hr : r ∈ initial) (hkey : key r = key row) : Found (found ++ [r])
  | made {found t row u found' r} (hfound : Found found) (hwant : want t found = some row)
      (hfound' : Found found') (hmade : want u found' = some r) (hkey : key r = key row) :
      Found (found ++ [r])

/-- The row is one that `t` can want after `i` others. -/
def Made (t : T) (i : ℕ) (row : ρ) : Prop :=
  ∃ found, Found key want initial found ∧ found.length = i ∧ want t found = some row

/-- What the transactions have in common, and what the unique constraints on the rows they make have
to do with the keys. -/
structure Cooperative (Clash : ρ → ρ → Prop) : Prop where
  same : ∀ found, Found key want initial found → ∀ t u,
    (want t found).map key = (want u found).map key
  unique : (initial.map key).Nodup
  clash_initial : ∀ t i row, Made key want initial t i row → ∀ r ∈ initial,
    Clash row r → key r = key row
  clash_made : ∀ t i row u j r, Made key want initial t i row → Made key want initial u j r →
    (u, j) ≠ (t, i) → (Clash row r ↔ key r = key row)

/-- What holds of one transaction in a run. -/
structure TxInv (committed : List ρ) (t : T) (tx : Tx ρ Empty (Stage ρ)) : Prop where
  found : Found key want initial tx.stage.found
  obtained : ∀ before r, before ++ [r] <+: tx.stage.found → r ∈ committed ++ tx.pending ∧
    ∃ row, want t before = some row ∧ key r = key row
  pending : ∀ r ∈ tx.pending, r ∈ tx.stage.found
  unique : ((committed ++ tx.pending).map key).Nodup
  missing : tx.stage.doing = .inserting → ∀ row, want t tx.stage.found = some row →
    ∀ r ∈ initial, key r ≠ key row
  present : tx.stage.doing = .rereading → ∀ row, want t tx.stage.found = some row →
    ∃ r ∈ committed ++ tx.pending, key r = key row
  fine : tx.stage.doing ≠ .raising ∧ tx.stage.doing ≠ .failed
  settled : tx.stage.doing = .done → want t tx.stage.found = none ∧ tx.pending = []

/-- What holds in a run: at most one transaction holds uncommitted rows, and every row was there
initially or was made for a position its maker has passed. -/
structure Inv (s : State T ρ Empty (Stage ρ)) : Prop where
  each : ∀ t, TxInv key want initial s.committed t (s.tx t)
  kept : ∀ r ∈ initial, r ∈ s.committed
  origin : ∀ t, ∀ r ∈ s.visible t, r ∈ initial ∨
    ∃ u j, j < (s.tx u).stage.found.length ∧ Made key want initial u j r
  holder : ∀ t u, (s.tx t).pending ≠ [] → (s.tx u).pending ≠ [] → t = u

end Cooperation

/-! ## Rows and keys -/

section Rows

variable {T ρ κ : Type*} {key : ρ → κ} {want : T → List ρ → Option ρ} {initial : List ρ}
  {Clash : ρ → ρ → Prop} {s : State T ρ Empty (Stage ρ)} {t u : T} {row r : ρ}

/-- What was found before was found. -/
lemma Found.of_prefix {found before : List ρ} (h : Found key want initial found)
    (hpre : before <+: found) : Found key want initial before := by
  induction h with
  | nil =>
    rw [List.prefix_nil.mp hpre]
    exact .nil
  | initial hfound hwant hr hkey ih =>
    rcases List.prefix_concat_iff.mp hpre with rfl | hpre
    · exact .initial hfound hwant hr hkey
    · exact ih hpre
  | made hfound hwant hfound' hmade hkey ih =>
    rcases List.prefix_concat_iff.mp hpre with rfl | hpre
    · exact .made hfound hwant hfound' hmade hkey
    · exact ih hpre

/-- The rows that transactions see are determined by their keys. -/
lemma Inv.eq_of_key_eq (h : Inv key want initial s) {r' : ρ} (hr : r ∈ s.visible t)
    (hr' : r' ∈ s.visible u) (hkey : key r = key r') : r = r' := by
  have hsame : ∀ v, r ∈ s.visible v → r' ∈ s.visible v → r = r' := fun v hv hv' =>
    List.inj_on_of_nodup_map (h.each v).unique hv hv' hkey
  rcases State.mem_visible.mp hr with hcommitted | hpending
  · exact hsame u (State.mem_visible.mpr (Or.inl hcommitted)) hr'
  · rcases State.mem_visible.mp hr' with hcommitted' | hpending'
    · exact hsame t hr (State.mem_visible.mpr (Or.inl hcommitted'))
    · obtain rfl := h.holder t u (List.ne_nil_of_mem hpending) (List.ne_nil_of_mem hpending')
      exact hsame t hr hr'

/-- What one transaction has found, another that has found as many rows has found as well. -/
lemma Inv.prefix_of_length_le (hc : Cooperative key want initial Clash)
    (h : Inv key want initial s) {before : List ρ} (ht : before <+: (s.tx t).stage.found)
    (hlen : before.length ≤ (s.tx u).stage.found.length) : before <+: (s.tx u).stage.found := by
  induction before using List.reverseRecOn with
  | nil => exact List.nil_prefix
  | append_singleton before r ih =>
    rw [List.length_append, List.length_singleton] at hlen
    obtain ⟨rest, hrest⟩ := ih ((List.prefix_append before [r]).trans ht) (by omega)
    have hfound : Found key want initial before :=
      (h.each t).found.of_prefix ((List.prefix_append before [r]).trans ht)
    cases rest with
    | nil =>
      rw [← hrest, List.append_nil] at hlen
      omega
    | cons r' rest =>
      have hu : before ++ [r'] <+: (s.tx u).stage.found :=
        ⟨rest, by rw [← hrest, List.append_assoc]; rfl⟩
      obtain ⟨hr, row, hrow, hkey⟩ := (h.each t).obtained before r ht
      obtain ⟨hr', row', hrow', hkey'⟩ := (h.each u).obtained before r' hu
      have hsame := hc.same before hfound t u
      rw [hrow, hrow', Option.map_some, Option.map_some, Option.some.injEq] at hsame
      obtain rfl := h.eq_of_key_eq hr hr' (by rw [hkey, hsame, hkey'])
      exact hu

/-- Of two transactions one has found what the other has found. -/
lemma Inv.prefix_or_prefix (hc : Cooperative key want initial Clash)
    (h : Inv key want initial s) (t u : T) :
    (s.tx t).stage.found <+: (s.tx u).stage.found ∨
      (s.tx u).stage.found <+: (s.tx t).stage.found := by
  rcases Nat.le_total (s.tx t).stage.found.length (s.tx u).stage.found.length with hle | hle
  · exact Or.inl (h.prefix_of_length_le hc (List.prefix_refl _) hle)
  · exact Or.inr (h.prefix_of_length_le hc (List.prefix_refl _) hle)

/-- A row that was found is seen. -/
lemma Inv.mem_visible (h : Inv key want initial s) (hr : r ∈ (s.tx t).stage.found) :
    r ∈ s.visible t := by
  obtain ⟨before, after, hsplit⟩ := List.append_of_mem hr
  exact ((h.each t).obtained before r
    ⟨after, by rw [hsplit, List.append_assoc, List.singleton_append]⟩).1

/-- **Transactions that are done agree.** They have found the same rows. -/
theorem Inv.found_eq (hc : Cooperative key want initial Clash) (h : Inv key want initial s)
    (ht : (s.tx t).stage.doing = .done) (hu : (s.tx u).stage.doing = .done) :
    (s.tx t).stage.found = (s.tx u).stage.found := by
  have hshorter : ∀ v w : T, (s.tx v).stage.doing = .done →
      (s.tx v).stage.found <+: (s.tx w).stage.found →
      (s.tx v).stage.found = (s.tx w).stage.found := by
    intro v w hv hpre
    obtain ⟨rest, hrest⟩ := hpre
    cases rest with
    | nil => rw [← hrest, List.append_nil]
    | cons r rest =>
      obtain ⟨-, row, hrow, -⟩ := (h.each w).obtained (s.tx v).stage.found r
        ⟨rest, by rw [← hrest, List.append_assoc, List.singleton_append]⟩
      have hsame := hc.same _ (h.each v).found v w
      rw [((h.each v).settled hv).1, hrow] at hsame
      cases hsame
  rcases h.prefix_or_prefix hc t u with hpre | hpre
  · exact hshorter t u ht hpre
  · exact (hshorter u t hu hpre).symm

end Rows

/-! ## Insertions -/

section Insertion

variable {T ρ κ : Type*} {key : ρ → κ} {want : T → List ρ → Option ρ} {initial : List ρ}
  {Clash : ρ → ρ → Prop} {s : State T ρ Empty (Stage ρ)} {t u : T} {row r : ρ}

/-- What `t` wants is made for the position it has reached. -/
lemma Inv.made (h : Inv key want initial s) (hwant : want t (s.tx t).stage.found = some row) :
    Made key want initial t (s.tx t).stage.found.length row :=
  ⟨_, (h.each t).found, rfl, hwant⟩

/-- A row made for a position its maker has passed is not made for the one `t` has reached. -/
lemma ne_of_lt_length {i : T → ℕ} {j : ℕ} (hj : j < i u) : (u, j) ≠ (t, i t) := by
  rintro heq
  obtain ⟨rfl, rfl⟩ := Prod.mk.inj heq
  exact Nat.lt_irrefl _ hj

/-- A row that `t` is about to insert clashes with every row of its key. -/
lemma Inv.clash_of_key_eq (hc : Cooperative key want initial Clash) (h : Inv key want initial s)
    (hdoing : (s.tx t).stage.doing = .inserting)
    (hwant : want t (s.tx t).stage.found = some row) (hr : r ∈ s.visible u)
    (hkey : key r = key row) : Clash row r := by
  rcases h.origin u r hr with hinitial | ⟨v, j, hj, hmade⟩
  · exact absurd hkey ((h.each t).missing hdoing row hwant r hinitial)
  · exact (hc.clash_made _ _ _ _ _ _ (h.made hwant) hmade
      (ne_of_lt_length (i := fun v => (s.tx v).stage.found.length) hj)).mpr hkey

/-- A row that refuses what `t` wants has its key. -/
lemma Inv.key_eq_of_clash (hc : Cooperative key want initial Clash) (h : Inv key want initial s)
    (hwant : want t (s.tx t).stage.found = some row) (hr : r ∈ s.visible u)
    (hclash : Clash row r) : key r = key row := by
  rcases h.origin u r hr with hinitial | ⟨v, j, hj, hmade⟩
  · exact hc.clash_initial _ _ _ (h.made hwant) r hinitial hclash
  · exact (hc.clash_made _ _ _ _ _ _ (h.made hwant) hmade
      (ne_of_lt_length (i := fun v => (s.tx v).stage.found.length) hj)).mp hclash

/-- **At most one transaction inserts.** If the row that `t` wants is neither refused nor blocked,
no other transaction holds uncommitted rows.

**Proof sketch.** Let `u` hold one. If `u` has found no more rows than `t`, then `t` has found the
row of `u`, which it cannot see. Otherwise `u` has found a row of the key that `t` wants, and this
row refuses or blocks the insertion. -/
lemma Inv.pending_eq_nil_of_inserted (hc : Cooperative key want initial Clash)
    (h : Inv key want initial s) (hdoing : (s.tx t).stage.doing = .inserting)
    (hwant : want t (s.tx t).stage.found = some row) (hrefused : ¬ Refused s Clash t row)
    (hblocked : ¬ Blocked s Clash t row) (hne : u ≠ t) : (s.tx u).pending = [] := by
  by_contra hpending
  obtain ⟨r, hr⟩ := List.exists_mem_of_ne_nil _ hpending
  have hfound : ¬ (s.tx u).stage.found <+: (s.tx t).stage.found := by
    intro hpre
    have hmem := h.mem_visible (hpre.subset ((h.each u).pending r hr))
    rcases State.mem_visible.mp hmem with hcommitted | hown
    · have hunique := (h.each u).unique
      rw [List.map_append, List.nodup_append] at hunique
      exact hunique.2.2 _ (List.mem_map_of_mem hcommitted) _ (List.mem_map_of_mem hr) rfl
    · exact hne (h.holder u t hpending (List.ne_nil_of_mem hown))
  rcases h.prefix_or_prefix hc t u with ⟨rest, hrest⟩ | hpre
  · cases rest with
    | nil =>
      rw [List.append_nil] at hrest
      exact hfound (hrest ▸ List.prefix_refl _)
    | cons r' rest =>
      obtain ⟨hr', row', hrow', hkey⟩ := (h.each u).obtained (s.tx t).stage.found r'
        ⟨rest, by rw [← hrest, List.append_assoc, List.singleton_append]⟩
      have hsame := hc.same _ (h.each t).found t u
      rw [hwant, hrow', Option.map_some, Option.map_some, Option.some.injEq] at hsame
      have hclash := h.clash_of_key_eq hc hdoing hwant hr' (hkey.trans hsame.symm)
      rcases List.mem_append.mp hr' with hcommitted | hother
      · exact hrefused ⟨r', State.mem_visible.mpr (Or.inl hcommitted), hclash⟩
      · exact hblocked ⟨u, hne, r', hother, hclash⟩
  · exact hfound hpre

end Insertion

/-! ## One statement -/

section Step

variable {T ρ κ : Type*} {key : ρ → κ} {want : T → List ρ → Option ρ} {initial : List ρ}
  {Clash : ρ → ρ → Prop} {s s' : State T ρ Empty (Stage ρ)} {t u : T} {row r : ρ}
  {committed pending : List ρ} {tx : Tx ρ Empty (Stage ρ)}

/-- A transaction that sees the row it wants has found it. -/
lemma TxInv.obtain (h : TxInv key want initial committed t tx)
    (hwant : want t tx.stage.found = some row)
    (hfound : Found key want initial (tx.stage.found ++ [r]))
    (hr : r ∈ committed ++ pending) (hkey : key r = key row) (hkept : tx.pending ⊆ pending)
    (hpending : ∀ x ∈ pending, x ∈ tx.stage.found ++ [r])
    (hunique : ((committed ++ pending).map key).Nodup) :
    TxInv key want initial committed t
      { tx with stage := { found := tx.stage.found ++ [r] }, pending := pending } where
  found := hfound
  obtained before x hpre := by
    rcases List.prefix_concat_iff.mp hpre with heq | hpre
    · obtain ⟨rfl, hx⟩ := List.append_inj' heq rfl
      obtain rfl := List.singleton_inj.mp hx
      exact ⟨hr, row, hwant, hkey⟩
    · obtain ⟨hx, hrest⟩ := h.obtained before x hpre
      refine ⟨?_, hrest⟩
      rcases List.mem_append.mp hx with hx | hx
      · exact List.mem_append_left _ hx
      · exact List.mem_append_right _ (hkept hx)
  pending := hpending
  unique := hunique
  missing := nofun
  present := nofun
  fine := ⟨nofun, nofun⟩
  settled := nofun

/-- A transaction without uncommitted rows sees further rows. -/
lemma TxInv.see {rows : List ρ} (h : TxInv key want initial committed t tx)
    (hpending : tx.pending = []) (hkept : committed ⊆ rows) (hunique : (rows.map key).Nodup) :
    TxInv key want initial rows t tx := by
  have hmono : committed ++ tx.pending ⊆ rows ++ tx.pending := by
    rw [hpending, List.append_nil, List.append_nil]
    exact hkept
  exact
    { h with
      obtained := fun before x hpre =>
        ⟨hmono (h.obtained before x hpre).1, (h.obtained before x hpre).2⟩
      unique := by rwa [hpending, List.append_nil]
      present := fun hdoing row hwant => by
        obtain ⟨x, hx, hkey⟩ := h.present hdoing row hwant
        exact ⟨x, hmono hx, hkey⟩ }

/-- A transaction may find any row it sees of the key it wants. -/
lemma Inv.found_append (h : Inv key want initial s)
    (hwant : want t (s.tx t).stage.found = some row) (hr : r ∈ s.visible u)
    (hkey : key r = key row) : Found key want initial ((s.tx t).stage.found ++ [r]) := by
  rcases h.origin u r hr with hinitial | ⟨v, j, -, found, hfound, -, hmade⟩
  · exact .initial (h.each t).found hwant hinitial hkey
  · exact .made (h.each t).found hwant hfound hmade hkey

variable [DecidableEq T]

/-- A transaction goes on to a state in which it is well. -/
lemma Inv.put (h : Inv key want initial s) (htx : TxInv key want initial s.committed t tx)
    (hlen : (s.tx t).stage.found.length ≤ tx.stage.found.length)
    (horigin : ∀ r ∈ tx.pending, r ∈ (s.tx t).pending ∨
      (s.tx t).stage.found.length < tx.stage.found.length ∧
        Made key want initial t (s.tx t).stage.found.length r)
    (hholder : tx.pending ≠ [] → ∀ u, u ≠ t → (s.tx u).pending = []) :
    Inv key want initial (s.put t tx) where
  each u := by
    by_cases hu : u = t
    · subst hu
      rw [State.put_tx_self]
      exact htx
    · rw [State.put_tx_of_ne hu]
      exact h.each u
  kept := h.kept
  origin := by
    have hgrown : ∀ u, (s.tx u).stage.found.length ≤ ((s.put t tx).tx u).stage.found.length := by
      intro u
      by_cases hu : u = t
      · subst hu
        rwa [State.put_tx_self]
      · rw [State.put_tx_of_ne hu]
    have hbefore : ∀ u, ∀ r ∈ s.visible u, r ∈ initial ∨
        ∃ u j, j < ((s.put t tx).tx u).stage.found.length ∧ Made key want initial u j r := by
      intro u r hr
      refine (h.origin u r hr).imp_right fun ⟨v, j, hj, hmade⟩ => ?_
      exact ⟨v, j, Nat.lt_of_lt_of_le hj (hgrown v), hmade⟩
    intro u r hr
    by_cases hu : u = t
    · subst hu
      rcases State.mem_visible.mp hr with hr | hr
      · exact hbefore u r (State.mem_visible.mpr (Or.inl hr))
      · rw [State.put_tx_self] at hr
        rcases horigin r hr with hr | ⟨hlt, hmade⟩
        · exact hbefore u r (State.mem_visible.mpr (Or.inr hr))
        · exact Or.inr ⟨u, _, by rwa [State.put_tx_self], hmade⟩
    · refine hbefore u r ?_
      rw [State.mem_visible, State.put_tx_of_ne hu] at hr
      exact State.mem_visible.mpr hr
  holder u v hu hv := by
    by_cases hut : u = t
    · by_cases hvt : v = t
      · rw [hut, hvt]
      · subst hut
        rw [State.put_tx_self] at hu
        rw [State.put_tx_of_ne hvt] at hv
        exact absurd (hholder hu v hvt) hv
    · rw [State.put_tx_of_ne hut] at hu
      by_cases hvt : v = t
      · subst hvt
        rw [State.put_tx_self] at hv
        exact absurd (hholder hv u hut) hu
      · rw [State.put_tx_of_ne hvt] at hv
        exact h.holder u v hu hv

/-- A transaction that keeps its rows goes on. -/
lemma Inv.put_stage {stage : Stage ρ} (h : Inv key want initial s)
    (htx : TxInv key want initial s.committed t { s.tx t with stage := stage })
    (hlen : (s.tx t).stage.found.length ≤ stage.found.length) :
    Inv key want initial (s.put t { s.tx t with stage := stage }) :=
  h.put htx hlen (fun _ hr => Or.inl hr) fun hpending u hu => by
    by_contra hother
    exact hu (h.holder u t hother hpending)

/-- A transaction that sees the row it wants has found it and goes on. -/
lemma Inv.put_found (h : Inv key want initial s)
    (hwant : want t (s.tx t).stage.found = some row) (hr : r ∈ s.visible t)
    (hkey : key r = key row) :
    Inv key want initial
      (s.put t { s.tx t with stage := { found := (s.tx t).stage.found ++ [r] } }) := by
  refine h.put_stage ?_ (by rw [List.length_append]; omega)
  exact (h.each t).obtain hwant (h.found_append hwant hr hkey) hr hkey (List.Subset.refl _)
    (fun x hx => List.mem_append_left _ ((h.each t).pending x hx)) (h.each t).unique

/-- A transaction inserts the row it wants. -/
lemma Inv.put_inserted (hc : Cooperative key want initial Clash) (h : Inv key want initial s)
    (hdoing : (s.tx t).stage.doing = .inserting)
    (hwant : want t (s.tx t).stage.found = some row) (hrefused : ¬ Refused s Clash t row)
    (hblocked : ¬ Blocked s Clash t row) :
    Inv key want initial (s.put t
      { s.tx t with
        stage := { found := (s.tx t).stage.found ++ [row] }
        pending := (s.tx t).pending ++ [row] }) := by
  have hlen : (s.tx t).stage.found.length < ((s.tx t).stage.found ++ [row]).length := by
    rw [List.length_append, List.length_singleton]
    omega
  have hnew : ∀ r ∈ s.visible t, key r ≠ key row := fun r hr hkey =>
    hrefused ⟨r, hr, h.clash_of_key_eq hc hdoing hwant hr hkey⟩
  refine h.put ?_ hlen.le ?_ ?_
  · refine (h.each t).obtain hwant
      (.made (h.each t).found hwant (h.each t).found hwant rfl) (by simp) rfl
      (List.subset_append_left _ _) ?_ ?_
    · intro x hx
      rcases List.mem_append.mp hx with hx | hx
      · exact List.mem_append_left _ ((h.each t).pending x hx)
      · exact List.mem_append_right _ hx
    · rw [← List.append_assoc, List.map_append, List.nodup_append]
      refine ⟨(h.each t).unique, List.nodup_singleton _, ?_⟩
      rintro _ ha _ hb rfl
      obtain ⟨r, hr, hkey⟩ := List.mem_map.mp ha
      exact hnew r hr (hkey.trans (List.mem_singleton.mp hb))
  · intro r hr
    rcases List.mem_append.mp hr with hr | hr
    · exact Or.inl hr
    · rw [List.mem_singleton.mp hr]
      exact Or.inr ⟨hlen, h.made hwant⟩
  · exact fun _ u hu => h.pending_eq_nil_of_inserted hc hdoing hwant hrefused hblocked hu

/-- A transaction that wants no more rows commits. -/
lemma Inv.publish (h : Inv key want initial s) (hwant : want t (s.tx t).stage.found = none) :
    Inv key want initial (s.publish t { (s.tx t).stage with doing := .done }) := by
  have hstage : ∀ u, ((s.publish t { (s.tx t).stage with doing := .done }).tx u).stage.found =
      (s.tx u).stage.found := by
    intro u
    by_cases hu : u = t
    · subst hu
      rw [State.publish_tx_self]
    · rw [State.publish_tx_of_ne hu]
  have hpending : ∀ u, ((s.publish t { (s.tx t).stage with doing := .done }).tx u).pending ≠ [] →
      u ≠ t ∧ (s.tx u).pending ≠ [] := by
    intro u hu
    by_cases hut : u = t
    · subst hut
      rw [State.publish_tx_self] at hu
      exact absurd rfl hu
    · rw [State.publish_tx_of_ne hut] at hu
      exact ⟨hut, hu⟩
  refine ⟨fun u => ?_, fun r hr => ?_, fun u r hr => ?_, fun u v hu hv => ?_⟩
  · by_cases hu : u = t
    · subst hu
      rw [State.publish_tx_self]
      exact
        { (h.each u) with
          obtained := fun before r hpre => by
            rw [List.append_nil]
            exact (h.each u).obtained before r hpre
          pending := nofun
          unique := by
            rw [List.append_nil]
            exact (h.each u).unique
          missing := nofun
          present := nofun
          fine := ⟨nofun, nofun⟩
          settled := fun _ => ⟨hwant, rfl⟩ }
    · rw [State.publish_tx_of_ne hu, State.publish_committed]
      by_cases hnone : (s.tx t).pending = []
      · unfold State.visible
        rw [hnone, List.append_nil]
        exact h.each u
      · refine (h.each u).see ?_ (List.subset_append_left _ _) (h.each t).unique
        by_contra hother
        exact hu (h.holder u t hother hnone)
  · exact State.mem_visible.mpr (Or.inl (h.kept r hr))
  · have hseen : ∃ w, r ∈ s.visible w := by
      rcases State.mem_visible.mp hr with hr | hr
      · exact ⟨t, hr⟩
      · obtain ⟨hut, -⟩ := hpending u (List.ne_nil_of_mem hr)
        rw [State.publish_tx_of_ne hut] at hr
        exact ⟨u, State.mem_visible.mpr (Or.inr hr)⟩
    obtain ⟨w, hr⟩ := hseen
    refine (h.origin w r hr).imp_right fun ⟨v, j, hj, hmade⟩ => ?_
    exact ⟨v, j, by rw [hstage]; exact hj, hmade⟩
  · exact h.holder u v (hpending u hu).2 (hpending v hv).2

variable {look again : LookUp key}

/-- A statement about a wanted row keeps the invariant.

**Proof sketch.** A look-up that succeeds finds a row of the key that was wanted. One that fails
shows that the key was not there initially. If an insertion is refused, the row that refused it has
the key, and stays to be found. -/
lemma Inv.obtain (hc : Cooperative key want initial Clash) (h : Inv key want initial s)
    (hwant : want t (s.tx t).stage.found = some row)
    (hstep : Executed (program look again want) Clash s t s') : Inv key want initial s' := by
  cases hstep with
  | selected hprogram =>
    rw [program_of_some hwant] at hprogram
    unfold rowStatement at hprogram
    split at hprogram <;> cases hprogram <;> dsimp only <;> split
    · next r hfind =>
      obtain ⟨hr, hkey⟩ := look.sound hfind
      exact h.put_found hwant hr hkey
    · next hfind =>
      refine h.put_stage ?_ le_rfl
      exact
        { (h.each t) with
          missing := fun _ row' hwant' r hr => by
            obtain rfl := Option.some.inj (hwant.symm.trans hwant')
            exact look.complete hfind r (State.mem_visible.mpr (Or.inl (h.kept r hr)))
          present := nofun
          fine := ⟨nofun, nofun⟩
          settled := nofun }
    · next r hfind =>
      obtain ⟨hr, hkey⟩ := again.sound hfind
      exact h.put_found hwant hr hkey
    · next hdoing _ hfind =>
      obtain ⟨r, hr, hkey⟩ := (h.each t).present hdoing row hwant
      exact absurd hkey (again.complete hfind r hr)
  | refused hprogram hrefused =>
    rw [program_of_some hwant] at hprogram
    unfold rowStatement at hprogram
    split at hprogram <;> cases hprogram
    obtain ⟨r, hr, hclash⟩ := hrefused
    refine h.put_stage ?_ le_rfl
    exact
      { (h.each t) with
        missing := nofun
        present := fun _ row' hwant' => by
          obtain rfl := Option.some.inj (hwant.symm.trans hwant')
          exact ⟨r, hr, h.key_eq_of_clash hc hwant hr hclash⟩
        fine := ⟨nofun, nofun⟩
        settled := nofun }
  | blocked hprogram hrefused hblocked => exact h
  | inserted hprogram hrefused hblocked =>
    rw [program_of_some hwant] at hprogram
    unfold rowStatement at hprogram
    split at hprogram <;> cases hprogram
    next hdoing => exact h.put_inserted hc hdoing hwant hrefused hblocked
  | waiting hprogram => exact h
  | locked hprogram =>
    rw [program_of_some hwant] at hprogram
    unfold rowStatement at hprogram
    split at hprogram <;> cases hprogram
  | committed hprogram =>
    rw [program_of_some hwant] at hprogram
    unfold rowStatement at hprogram
    split at hprogram <;> cases hprogram
  | rolledBack hprogram =>
    rw [program_of_some hwant] at hprogram
    unfold rowStatement at hprogram
    split at hprogram <;> cases hprogram
    next hdoing => exact absurd hdoing (h.each t).fine.1

/-- **The invariant of a run.** Every statement keeps the invariant. -/
theorem inv_of_executed (hc : Cooperative key want initial Clash) (h : Inv key want initial s)
    (hstep : Executed (program look again want) Clash s t s') : Inv key want initial s' := by
  cases hwant : want t (s.tx t).stage.found with
  | some row => exact h.obtain hc hwant hstep
  | none =>
    cases hstep with
    | committed hprogram =>
      rw [program_of_none hwant] at hprogram
      split_ifs at hprogram
      cases hprogram
      exact h.publish hwant
    | blocked hprogram => exact h
    | waiting hprogram => exact h
    | locked hprogram =>
      rw [program_of_none hwant] at hprogram
      split_ifs at hprogram
    | selected hprogram =>
      rw [program_of_none hwant] at hprogram
      split_ifs at hprogram
    | refused hprogram =>
      rw [program_of_none hwant] at hprogram
      split_ifs at hprogram
    | inserted hprogram =>
      rw [program_of_none hwant] at hprogram
      split_ifs at hprogram
    | rolledBack hprogram =>
      rw [program_of_none hwant] at hprogram
      split_ifs at hprogram

omit [DecidableEq T] in
/-- The invariant holds where the transactions start. -/
lemma inv_start (hc : Cooperative key want initial Clash) :
    Inv key want initial (start initial fun _ : T => {}) where
  each t :=
    { found := .nil
      obtained := fun before r hpre => by
        have hlen := hpre.length_le
        rw [List.length_append] at hlen
        cases hlen
      pending := nofun
      unique := by
        rw [start, List.append_nil]
        exact hc.unique
      missing := nofun
      present := nofun
      fine := ⟨nofun, nofun⟩
      settled := nofun }
  kept r hr := hr
  origin t r hr := by
    rw [State.visible, start, List.append_nil] at hr
    exact Or.inl hr
  holder t u ht := absurd rfl ht

end Step

/-! ## Completion -/

/-- How far a row is from being obtained. -/
def Doing.rank : Doing → ℕ
  | .looking => 3
  | .inserting => 2
  | .rereading => 1
  | .raising => 0
  | .failed => 0
  | .done => 0

/-- How far a transaction is from its end, if it wants at most `bound` rows. -/
def Stage.rank {ρ : Type*} (bound : ℕ) (stage : Stage ρ) : ℕ :=
  4 * (bound - stage.found.length) + stage.doing.rank

/-- A transaction that is not done is not at its end. -/
lemma TxInv.rank_pos {T ρ κ : Type*} {key : ρ → κ} {want : T → List ρ → Option ρ}
    {initial committed : List ρ} {t : T} {tx : Tx ρ Empty (Stage ρ)}
    (h : TxInv key want initial committed t tx) (hdone : tx.stage.doing ≠ .done) :
    0 < tx.stage.doing.rank := by
  have hfine := h.fine
  cases hdoing : tx.stage.doing with
  | looking => exact Nat.zero_lt_succ _
  | inserting => exact Nat.zero_lt_succ _
  | rereading => exact Nat.zero_lt_succ _
  | raising => exact absurd hdoing hfine.1
  | failed => exact absurd hdoing hfine.2
  | done => exact absurd hdoing hdone

/-- A transaction that has found a row more is closer to its end. -/
lemma rank_found_lt {ρ : Type*} {bound : ℕ} {stage : Stage ρ} {r : ρ}
    (hlen : stage.found.length < bound) :
    Stage.rank bound { found := stage.found ++ [r] } < stage.rank bound := by
  unfold Stage.rank
  rw [List.length_append, List.length_singleton]
  simp only [Doing.rank]
  omega

section Completion

variable {T ρ κ : Type*} [Fintype T] [DecidableEq T] {key : ρ → κ} {want : T → List ρ → Option ρ}
  {initial : List ρ} {Clash : ρ → ρ → Prop} [DecidableRel Clash] {s s' : State T ρ Empty (Stage ρ)}
  {look again : LookUp key} {bound : ℕ}

/-- How far the transactions are from their ends. -/
def remaining (bound : ℕ) (s : State T ρ Empty (Stage ρ)) : ℕ := ∑ t, (s.tx t).stage.rank bound

/-- If one transaction gets closer to its end and the others stay, all together get closer. -/
lemma remaining_lt {t : T} (ht : (s'.tx t).stage.rank bound < (s.tx t).stage.rank bound)
    (hother : ∀ u, u ≠ t → (s'.tx u).stage = (s.tx u).stage) :
    remaining bound s' < remaining bound s := by
  refine Finset.sum_lt_sum (fun u _ => ?_) ⟨t, Finset.mem_univ t, ht⟩
  by_cases hu : u = t
  · subst hu
    exact ht.le
  · rw [hother u hu]

/-- A transaction that is neither done nor blocked takes a step towards its end. -/
lemma Inv.exists_step (look again : LookUp key) (h : Inv key want initial s)
    (hbound : ∀ t found row, want t found = some row → found.length < bound) {t : T}
    (hdone : (s.tx t).stage.doing ≠ .done)
    (hfree : ∀ row, ¬ Blocked s Clash t row) :
    ∃ s', step (program look again want) Clash s t = some s' ∧
      remaining bound s' < remaining bound s := by
  have hpos := (h.each t).rank_pos hdone
  have hput : ∀ tx : Tx ρ Empty (Stage ρ), tx.stage.rank bound < (s.tx t).stage.rank bound →
      remaining bound (s.put t tx) < remaining bound s := by
    intro tx hlt
    refine remaining_lt (t := t) ?_ fun u hu => ?_
    · rwa [State.put_tx_self]
    · rw [State.put_tx_of_ne hu]
  cases hwant : want t (s.tx t).stage.found with
  | none =>
    have hprogram : program look again want t (s.tx t).stage = _ := program_of_none hwant
    rw [if_neg hdone] at hprogram
    refine ⟨_, step_of_commit hprogram, remaining_lt (t := t) ?_ fun u hu => ?_⟩
    · rw [State.publish_tx_self]
      exact Nat.add_lt_add_left hpos _
    · rw [State.publish_tx_of_ne hu]
  | some row =>
    have hlen := hbound t _ row hwant
    have hprogram : program look again want t (s.tx t).stage = _ := program_of_some hwant
    have hfine := (h.each t).fine
    cases hdoing : (s.tx t).stage.doing with
    | looking =>
      rw [hdoing] at hprogram
      refine ⟨_, step_of_select hprogram, hput _ ?_⟩
      dsimp only
      split
      · exact rank_found_lt hlen
      · unfold Stage.rank
        rw [hdoing]
        exact Nat.lt_succ_self _
    | inserting =>
      rw [hdoing] at hprogram
      by_cases hrefused : Refused s Clash t row
      · refine ⟨_, step_of_refused hprogram hrefused, hput _ ?_⟩
        unfold Stage.rank
        rw [hdoing]
        exact Nat.lt_succ_self _
      · exact ⟨_, step_of_inserted hprogram hrefused (hfree row), hput _ (rank_found_lt hlen)⟩
    | rereading =>
      rw [hdoing] at hprogram
      refine ⟨_, step_of_select hprogram, hput _ ?_⟩
      dsimp only
      split
      · exact rank_found_lt hlen
      · unfold Stage.rank
        rw [hdoing]
        exact Nat.lt_succ_self _
    | raising => exact absurd hdoing hfine.1
    | failed => exact absurd hdoing hfine.2
    | done => exact absurd hdoing hdone

/-- **Progress.** Some transaction takes a step towards its end unless all are done.

**Proof sketch.** A transaction is only blocked by one that holds uncommitted rows. That one is not
done, and it is not blocked itself, since no other holds uncommitted rows. -/
lemma Inv.progress (Clash : ρ → ρ → Prop) [DecidableRel Clash] (look again : LookUp key)
    (h : Inv key want initial s)
    (hbound : ∀ t found row, want t found = some row → found.length < bound)
    (hopen : ∃ t, (s.tx t).stage.doing ≠ .done) :
    ∃ t s', step (program look again want) Clash s t = some s' ∧
      remaining bound s' < remaining bound s := by
  by_cases hpending : ∃ u, (s.tx u).pending ≠ []
  · obtain ⟨u, hu⟩ := hpending
    refine ⟨u, h.exists_step look again hbound (fun hdone => hu ((h.each u).settled hdone).2) ?_⟩
    rintro row ⟨v, hvu, r, hr, -⟩
    exact hvu (h.holder v u (List.ne_nil_of_mem hr) hu)
  · obtain ⟨t, ht⟩ := hopen
    refine ⟨t, h.exists_step look again hbound ht ?_⟩
    rintro row ⟨v, -, r, hr, -⟩
    exact hpending ⟨v, List.ne_nil_of_mem hr⟩

/-- **Completion.** Every run can be continued until all transactions are done. -/
theorem Inv.exists_completion (look again : LookUp key)
    (hc : Cooperative key want initial Clash) (h : Inv key want initial s)
    (hbound : ∀ t found row, want t found = some row → found.length < bound) :
    ∃ schedule, ∀ t, ((History.replay (step (program look again want) Clash) s schedule).tx
      t).stage.doing = .done := by
  induction hn : remaining bound s using Nat.strong_induction_on generalizing s with
  | _ n ih =>
    by_cases hopen : ∃ t, (s.tx t).stage.doing ≠ .done
    · obtain ⟨t, s', hstep, hlt⟩ := h.progress Clash look again hbound hopen
      obtain ⟨schedule, hdone⟩ :=
        ih _ (hn ▸ hlt) (inv_of_executed hc h (executed_of_step hstep)) rfl
      refine ⟨t :: schedule, fun u => ?_⟩
      rw [History.replay_cons, History.commit_of_some _ hstep]
      exact hdone u
    · refine ⟨[], fun t => ?_⟩
      by_contra hne
      exact hopen ⟨t, hne⟩

end Completion

end GetOrInsert

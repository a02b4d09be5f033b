import Mathlib.Tactic.Common

set_option relaxedAutoImplicit false
set_option autoImplicit false

/-!
# Optimistic transactions on a register

Clients share a register. A client watches the register, reads it, queues a new value and asks the
server to execute the queued write. The server refuses if the register was written since the client
began to watch, and may refuse for reasons of its own.

## Main definitions

* `Register` — a value with the number of its writes.
* `Transaction` — how far a client has come.
* `Transaction.Sound` — what a client knows of the register.

## Main results

* `Transaction.Sound.write` — a write of any client keeps the knowledge of every client sound.
* `Transaction.Sound.value_eq` — a write that is executed replaces the value its client has read.
-/

namespace Optimistic

variable {α : Type*}

/-- A value and the number of times it was written. -/
structure Register (α : Type*) where
  value : α
  writes : ℕ := 0

namespace Register

variable (r : Register α)

/-- Write a value. -/
def write (new : α) : Register α := ⟨new, r.writes + 1⟩

/-- `EXEC` of a queued write by a client that watches since the given number of writes. -/
def exec (since : ℕ) (aborted : Bool) (new : α) : Option (Register α) :=
  if aborted = false ∧ since = r.writes then some (r.write new) else none

@[simp] lemma write_value (new : α) : (r.write new).value = new := rfl

@[simp] lemma write_writes (new : α) : (r.write new).writes = r.writes + 1 := rfl

lemma exec_eq_some {r r' : Register α} {since : ℕ} {aborted : Bool} {new : α}
    (h : r.exec since aborted new = some r') : since = r.writes ∧ r' = r.write new := by
  unfold exec at h
  split_ifs at h with hunchanged
  exact ⟨hunchanged.2, (Option.some.inj h).symm⟩

end Register

/-- The stages of a transaction: opened, watching since a number of writes, then with the value
read, then with the value to write. -/
inductive Transaction (α : Type*) where
  | opened
  | watched (since : ℕ)
  | read (since : ℕ) (value : α)
  | queued (since : ℕ) (value new : α)

/-- What a client has read is the value of the register, if this was not written since. -/
def Transaction.Sound (r : Register α) : Transaction α → Prop
  | .opened => True
  | .watched since => since ≤ r.writes
  | .read since value => since ≤ r.writes ∧ (since = r.writes → value = r.value)
  | .queued since value _ => since ≤ r.writes ∧ (since = r.writes → value = r.value)

namespace Transaction

variable {r : Register α} {since : ℕ} {value new : α}

/-- A client that begins to watch. -/
lemma sound_watch : (watched r.writes : Transaction α).Sound r := Nat.le_refl _

/-- A client that reads. -/
lemma Sound.get (h : (watched since : Transaction α).Sound r) :
    (Transaction.read since r.value).Sound r := ⟨h, fun _ => rfl⟩

/-- A client that queues a write. -/
lemma Sound.multi (h : (Transaction.read since value).Sound r) :
    (queued since value new).Sound r := h

/-- Every client sees a write of another one. -/
lemma Sound.write {tx : Transaction α} (h : tx.Sound r) (other : α) :
    tx.Sound (r.write other) := by
  cases tx with
  | opened => trivial
  | watched since => exact Nat.le_succ_of_le h
  | read since value | queued since value new =>
    refine ⟨Nat.le_succ_of_le h.1, fun heq => ?_⟩
    have hle : since ≤ r.writes := h.1
    rw [Register.write_writes] at heq
    omega

/-- **Compare and set.** A write that is executed replaces the value that its client has read. -/
lemma Sound.value_eq {r' : Register α} {aborted : Bool}
    (h : (queued since value new).Sound r) (hexec : r.exec since aborted new = some r') :
    value = r.value := h.2 (Register.exec_eq_some hexec).1

end Transaction

end Optimistic

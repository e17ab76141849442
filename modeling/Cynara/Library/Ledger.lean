import Mathlib.Data.List.Basic

/-!
# Ledgers

A ledger records what is queued for output and what has been handed on, each in its order.  What is
kept accounts for the ledger if nothing has been lost or handed on twice: what has been handed on,
followed by what is kept, is what was queued.
-/

/-- What is queued and what is handed on. -/
structure Ledger (α : Type) where
  queued : List α := []
  handed : List α := []

namespace Ledger

variable {α : Type} {l : Ledger α} {kept : List α}

def queue (items : List α) (l : Ledger α) : Ledger α := { l with queued := l.queued ++ items }

def hand (items : List α) (l : Ledger α) : Ledger α := { l with handed := l.handed ++ items }

/-- What is kept is what has been queued and not handed on. -/
def Accounts (l : Ledger α) (kept : List α) : Prop := l.handed ++ kept = l.queued

theorem Accounts.queue (h : l.Accounts kept) (items : List α) :
  (l.queue items).Accounts (kept ++ items)
  := by
  rw [Accounts] at h
  simp only [Accounts, Ledger.queue, ← h, List.append_assoc]

/-- The first of the items that are kept are handed on. -/
theorem Accounts.hand (h : l.Accounts kept) (n : ℕ) :
  (l.hand (kept.take n)).Accounts (kept.drop n)
  := by
  rw [Accounts] at h
  simp only [Accounts, Ledger.hand, List.append_assoc, List.take_append_drop, h]

end Ledger

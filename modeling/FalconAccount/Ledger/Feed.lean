import FalconAccount.Ledger.Simulator

/-!
# Following accepted groups

A feed hands out the groups that a ledger accepts after the feed was opened, one at a time. Only the
last few are kept; a feed that falls behind is told how many it missed, and goes on with the oldest kept.
-/

namespace FalconAccount

/-- A place in the log of accepted groups. -/
structure Feed where
  next : Nat
  deriving DecidableEq, Repr

inductive Feed.Item where
  | submission (s : Submission)
  | empty
  /-- So many groups were missed. -/
  | lagged (missed : Nat)

/-- How many groups are kept. -/
def Feed.capacity : Nat := 64

/-- A feed of the groups accepted from now on. -/
def Ledger.subscribe (l : Ledger) : Feed := ⟨l.log.length⟩

def Feed.receive (f : Feed) (l : Ledger) : Feed.Item × Feed :=
  let oldest := l.log.length - Feed.capacity
  if f.next < oldest then (.lagged (oldest - f.next), ⟨oldest⟩)
  else
    match l.submissions[f.next]? with
    | some s => (.submission s, ⟨f.next + 1⟩)
    | none => (.empty, f)

end FalconAccount

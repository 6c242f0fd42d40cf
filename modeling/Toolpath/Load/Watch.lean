import Toolpath.Load

/-!
# Watching for a request to cancel

A load that waits for a read also watches a signal, which the holder of the handle raises. Each
time the load is woken, it asks for the signal first and for the read only then. The signal counts
how often it was raised, so that a watcher who has looked at it notices the next time, and it knows
when the handle is gone, from where on there is nothing to wait for. Every read is watched anew.
-/

namespace Toolpath

structure Signal where
  raised : Bool := false
  changes : Nat := 0
  closed : Bool := false
deriving DecidableEq, Repr

namespace Signal

def raise (s : Signal) : Signal :=
  if s.closed then s else { s with raised := true, changes := s.changes + 1 }

def close (s : Signal) : Signal := { s with closed := true }

/-- What the signal tells, however often it was raised. -/
def state (s : Signal) : Cancellation where
  requested := s.raised
  held := !s.closed

end Signal

inductive Watcher where
  | fresh
  /-- Waits for the first change after so many. -/
  | waiting (seen : Nat)
  /-- Waits for nothing anymore. -/
  | idle
deriving DecidableEq, Repr

namespace Watcher

def look (s : Signal) : Option Watcher :=
  if s.raised then none
  else if s.closed then some .idle
  else some (.waiting s.changes)

/-- Asks for the signal: either it is found raised, or the watcher goes on as given. -/
def poll (s : Signal) : Watcher → Option Watcher
  | .fresh => look s
  | .waiting seen =>
    if s.changes ≠ seen then look s
    else if s.closed then some .idle
    else some (.waiting seen)
  | .idle => some .idle

end Watcher

/-- Goes through a script, where the load is woken only when the reader has something to say. What
the holder of the handle does in between is found out then. -/
def Load.watch (load : Load) (s : Signal) (watcher : Watcher) : Script → LoadOutcome
  | [] => match watcher.poll s with
    | none => load.abandon .cancelled
    | some _ => load.complete
  | .cancel :: rest => load.watch s.raise watcher rest
  | .release :: rest => load.watch s.close watcher rest
  | .pending :: rest => match watcher.poll s with
    | none => load.abandon .cancelled
    | some watcher => load.watch s watcher rest
  | .answer answer cancelling :: rest => match watcher.poll s with
    | none => load.abandon .cancelled
    | some _ => match answer with
      | .bytes [] => load.complete
      | .bytes chunk =>
        (load.takeChunk chunk).watch (if cancelling then s.raise else s) .fresh rest
      | .failed reason | .interrupted reason => load.abandon (.io reason)

/-- Loads a stream as `load` does, with a signal to watch. -/
def Loader.loadWatching (l : Loader) (script : Script) (total : Option Nat) (s : Signal) :
    LoadOutcome :=
  (Load.start l.mode total l.machine).watch s .fresh (script.cut l.readSize)

end Toolpath

import PipelineTraining.Fault

/-!
Pending backwards. Every forward keeps activations alive until its backward has
run; the limiter counts them rank by rank and refuses a forward once the count
has reached the limit. A refused forward is put off, not failed.
-/

namespace PipelineTraining

structure Limiter where
  limit : Nat
  pending : List Nat
  peaks : List Nat

namespace Limiter

def make (ranks limit : Nat) : Except Fault Limiter :=
  if limit = 0 then .error (.configuration .noMemory)
  else .ok ⟨limit, List.replicate ranks 0, List.replicate ranks 0⟩

def pendingOn (limiter : Limiter) (rank : Nat) : Nat :=
  limiter.pending[rank]?.getD 0

def peakOn (limiter : Limiter) (rank : Nat) : Nat :=
  limiter.peaks[rank]?.getD 0

def admits (limiter : Limiter) (rank : Nat) : Bool :=
  match limiter.pending[rank]? with
  | none => false
  | some count => count < limiter.limit

def admit? (limiter : Limiter) (rank : Nat) : Option Limiter :=
  if limiter.admits rank then
    let count := limiter.pendingOn rank + 1
    some { limiter with
      pending := limiter.pending.set rank count
      peaks := limiter.peaks.set rank (max (limiter.peakOn rank) count) }
  else none

def complete (limiter : Limiter) (rank : Nat) : Except Fault Limiter :=
  match limiter.pending[rank]? with
  | none => .error (.invariant rank .untracked)
  | some 0 => .error (.invariant rank .nothingPending)
  | some (count + 1) => .ok { limiter with pending := limiter.pending.set rank count }

def reset (limiter : Limiter) : Limiter where
  limit := limiter.limit
  pending := limiter.pending.map fun _ => 0
  peaks := limiter.peaks.map fun _ => 0

def isDrained (limiter : Limiter) : Bool :=
  limiter.pending.all (· == 0)

end Limiter
end PipelineTraining

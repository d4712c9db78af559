import SealedImage.Failure

/-!
# Sinks

A sink is the list of what its writes will meet: room for some octets, an interruption, a refusal or a
fault; behind the list there is room for everything. It remembers what it has accepted and how often it
was flushed. `Sink.writeAll` repeats interrupted writes and stops at the first refusal or fault.
-/

namespace SealedImage

inductive Acceptance
  /-- Room for one octet and `more`; a shorter write leaves the other room for the next one. -/
  | room (more : Nat)
  /-- Nothing is accepted, but the write may be repeated. -/
  | interrupted
  /-- Nothing is accepted, without a fault. -/
  | refused
  | failed (fault : IoFault)

/-- A writer with what it will meet and what it has taken. -/
structure Sink where
  acceptances : List Acceptance
  flushFault : Option IoFault
  written : Octets
  flushes : Nat

namespace Sink

def perfect : Sink :=
  ⟨[], none, [], 0⟩

/-- The octets accepted of a string, the fault that stopped it, and what later writes will meet. -/
def accept : List Acceptance → Octets → Octets × Option IoFault × List Acceptance
  | script, [] => ([], none, script)
  | [], xs => (xs, none, [])
  | .room more :: script, xs =>
    if xs.length ≤ more then (xs, none, .room (more - xs.length) :: script)
    else
      let (accepted, fault, later) := accept script (xs.drop (more + 1))
      (xs.take (more + 1) ++ accepted, fault, later)
  | .interrupted :: script, xs => accept script xs
  | .refused :: script, _ => ([], some .nothingAccepted, .refused :: script)
  | .failed fault :: script, _ => ([], some fault, .failed fault :: script)

/-- Writes a string of octets until a refusal or fault stops it. -/
def writeAll (xs : Octets) (sink : Sink) : Option IoFault × Sink :=
  let (accepted, fault, later) := accept sink.acceptances xs
  (fault, { sink with acceptances := later, written := sink.written ++ accepted })

def flush (sink : Sink) : Option IoFault × Sink :=
  (sink.flushFault, { sink with flushes := sink.flushes + 1 })

end Sink

end SealedImage

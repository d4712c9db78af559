import SealedImage.Failure

/-!
# Sources

A source is the list of what its reads deliver: some octets, an interruption, or a fault. Behind the list
the input has ended. Reading everything (`Source.readAll`) and reading a fixed count (`Source.take`) repeat
interrupted reads, so only the octets and the first fault matter and not how they are split into reads.
-/

namespace SealedImage

inductive Delivery
  /-- Octets, at least one; a read that asks for fewer leaves the others for the next one. -/
  | octets (first : UInt8) (rest : Octets)
  /-- Nothing, but the read may be repeated. -/
  | interrupted
  | failed (fault : IoFault)

abbrev Source := List Delivery

namespace Source

def ofOctets : Octets → Source
  | [] => []
  | x :: xs => [.octets x xs]

/-- All octets up to the end of the input, unless a fault comes first. -/
def readAll : Source → Except IoFault Octets
  | [] => .ok []
  | .octets x xs :: rest => (readAll rest).map fun ys => x :: (xs ++ ys)
  | .interrupted :: rest => readAll rest
  | .failed fault :: _ => .error fault

/-- The octets that are taken when `n` are asked for, and the fault if they are fewer. -/
def take (n : Nat) : Source → Octets × Option IoFault
  | [] => if n = 0 then ([], none) else ([], some .unexpectedEnd)
  | .octets x xs :: rest =>
    if n = 0 then ([], none)
    else
      let got := (x :: xs).take n
      let (more, fault) := take (n - got.length) rest
      (got ++ more, fault)
  | .interrupted :: rest => if n = 0 then ([], none) else take n rest
  | .failed fault :: _ => if n = 0 then ([], none) else ([], some fault)

end Source

end SealedImage

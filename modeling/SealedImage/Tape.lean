import SealedImage.Octets.Basic

/-!
# The random tape

Random octets are read from a tape, from left to right, and every draw leaves the unread rest. A draw is a
function from a tape to a value and the rest, or to nothing if the tape ends too early. Where a value may
be rejected, `retry` draws again; on a tape that ends before a value is accepted, there is no result.
-/

namespace SealedImage

abbrev Draw (α : Type) := Octets → Option (α × Octets)

namespace Draw

/-- The next `n` octets. -/
def block (n : Nat) : Draw (Block n) := fun tape =>
  if h : n ≤ tape.length then some (Block.cut tape 0 n (by omega), tape.drop n) else none

/-- The first accepted value of repeated draws. A draw that takes no octets is not repeated. -/
def retry {α β : Type} (draw : Draw α) (accept : α → Option β) : Draw β := fun tape =>
  match draw tape with
  | none => none
  | some (a, rest) =>
    match accept a with
    | some b => some (b, rest)
    | none => if rest.length < tape.length then retry draw accept rest else none
termination_by tape => tape.length

/-- A non-zero octet, after as many zeros as come first. -/
def nonZero : Draw UInt8 :=
  retry (block 1) fun b => b.octets.find? (· != 0)

/-- The octets with a new non-zero octet in place of each zero. -/
def replaceZeros : Octets → Draw Octets
  | [] => fun tape => some ([], tape)
  | x :: xs => fun tape => do
    let (y, tape) ← if x = 0 then nonZero tape else some (x, tape)
    let (ys, tape) ← replaceZeros xs tape
    some (y :: ys, tape)

end Draw

end SealedImage

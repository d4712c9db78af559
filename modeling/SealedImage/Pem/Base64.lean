import SealedImage.Octets.Basic

/-!
# Base64

Three octets are written as four characters, a last group of one or two octets is filled up with `=`.
`encode` writes the one text of an octet string, and `decode?` accepts nothing else: the bits that the
padding stands for have to be zero.
-/

namespace SealedImage.Pem

/-- The character of a number below 64. -/
def digitChar (n : Nat) : Char :=
  if n < 26 then Char.ofNat (65 + n)
  else if n < 52 then Char.ofNat (97 + (n - 26))
  else if n < 62 then Char.ofNat (48 + (n - 52))
  else if n = 62 then '+' else '/'

/-- The number below 64 that a character stands for. -/
def digitValue? (c : Char) : Option Nat :=
  if 'A' ≤ c ∧ c ≤ 'Z' then some (c.toNat - 65)
  else if 'a' ≤ c ∧ c ≤ 'z' then some (c.toNat - 97 + 26)
  else if '0' ≤ c ∧ c ≤ '9' then some (c.toNat - 48 + 52)
  else if c = '+' then some 62
  else if c = '/' then some 63
  else none

def encode : Octets → List Char
  | [] => []
  | [a] =>
    let n := a.toNat * 16
    [digitChar (n / 64), digitChar (n % 64), '=', '=']
  | [a, b] =>
    let n := (a.toNat * 256 + b.toNat) * 4
    [digitChar (n / 4096), digitChar (n / 64 % 64), digitChar (n % 64), '=']
  | a :: b :: c :: rest =>
    let n := (a.toNat * 256 + b.toNat) * 256 + c.toNat
    digitChar (n / 262144) :: digitChar (n / 4096 % 64) :: digitChar (n / 64 % 64) ::
      digitChar (n % 64) :: encode rest

/-- The octets of a text of whole groups, without padding. -/
def decodeGroups? : List Char → Option Octets
  | [] => some []
  | w :: x :: y :: z :: rest => do
    let n := (((← digitValue? w) * 64 + (← digitValue? x)) * 64 + (← digitValue? y)) * 64 +
      (← digitValue? z)
    let octets ← decodeGroups? rest
    some (UInt8.ofNat (n / 65536) :: UInt8.ofNat (n / 256) :: UInt8.ofNat n :: octets)
  | _ => none

def decodePadded? : List Char → Option Octets
  | [w, x, '=', '='] => do
    let n := (← digitValue? w) * 64 + (← digitValue? x)
    if n % 16 = 0 then some [UInt8.ofNat (n / 16)] else none
  | [w, x, y, '='] => do
    let n := ((← digitValue? w) * 64 + (← digitValue? x)) * 64 + (← digitValue? y)
    if n % 4 = 0 then some [UInt8.ofNat (n / 1024), UInt8.ofNat (n / 4)] else none
  | _ => none

def decode? (text : List Char) : Option Octets :=
  let last := text.drop (text.length - 4)
  if last.getLast? = some '=' then do
    let octets ← decodeGroups? (text.take (text.length - 4))
    some (octets ++ (← decodePadded? last))
  else decodeGroups? text

end SealedImage.Pem

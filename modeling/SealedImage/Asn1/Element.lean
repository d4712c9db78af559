import SealedImage.Octets.Number
import SealedImage.Asn1.ObjectIdentifier

/-!
# Elements in distinguished encoding

An element is an identifier octet and its contents. `Element.write` is its one encoding: the identifier,
the length in its shortest form, the contents. `Element.read` and `Element.readAll` accept known
identifiers, lengths in their shortest form, and nothing that is cut short. The functions with a question
mark give an element the meaning of its type, if its identifier and contents allow it.
-/

namespace SealedImage.Asn1

/-- An identifier octet with the contents that it announces. -/
structure Element where
  identifier : UInt8
  contents : Octets
deriving DecidableEq

/-- The identifier octets of the types that keys are made of. -/
def integerTag : UInt8 := 0x02
@[inherit_doc integerTag] def bitStringTag : UInt8 := 0x03
@[inherit_doc integerTag] def octetStringTag : UInt8 := 0x04
@[inherit_doc integerTag] def nullTag : UInt8 := 0x05
@[inherit_doc integerTag] def objectIdentifierTag : UInt8 := 0x06
@[inherit_doc integerTag] def sequenceTag : UInt8 := 0x30

/-- The universal types that an element may have. -/
def universalTags : List UInt8 :=
  [0x01, 0x02, 0x03, 0x04, 0x05, 0x06, 0x09, 0x0a, 0x0c, 0x12, 0x13, 0x14, 0x15, 0x16, 0x17, 0x18,
    0x1a, 0x1e, 0x30, 0x31]

/-- The identifier is one of the universal types, or of another class with a number below 31. -/
def isKnownTag (identifier : UInt8) : Bool :=
  if identifier < 0x40 then universalTags.contains identifier else identifier &&& 0x1f != 0x1f

/-- The length in its shortest form: one octet below 128, else the count of its octets before them. -/
def writeLength (n : Nat) : Octets :=
  if n < 128 then [UInt8.ofNat n]
  else
    let digits := Octets.minimal n
    UInt8.ofNat (0x80 + digits.length) :: digits

/-- The length at the start of an octet string, below `2 ^ 28`, and what follows. -/
def readLength : Octets → Option (Nat × Octets)
  | [] => none
  | x :: xs =>
    if x < 0x80 then some (x.toNat, xs)
    else
      let count := x.toNat - 0x80
      let digits := xs.take count
      let n := Octets.toNat digits
      if count ≤ 4 ∧ n < 0x10000000 ∧ writeLength n = x :: digits then some (n, xs.drop count) else none

namespace Element

def write (e : Element) : Octets :=
  e.identifier :: (writeLength e.contents.length ++ e.contents)

/-- The element at the start of an octet string, and what follows. -/
def read : Octets → Option (Element × Octets)
  | [] => none
  | identifier :: xs =>
    if isKnownTag identifier then
      match readLength xs with
      | none => none
      | some (n, rest) =>
        if n ≤ rest.length then some (⟨identifier, rest.take n⟩, rest.drop n) else none
    else none

/-- The elements that fill an octet string, of which there are at most `count`. -/
def readUpTo : (count : Nat) → Octets → Option (List Element)
  | _, [] => some []
  | 0, _ :: _ => none
  | count + 1, x :: xs =>
    match read (x :: xs) with
    | none => none
    | some (e, rest) => (readUpTo count rest).map (e :: ·)

def readAll (xs : Octets) : Option (List Element) :=
  readUpTo xs.length xs

/-- The encodings of elements one after the other. -/
def writeAll (es : List Element) : Octets :=
  es.flatMap write

def document? (xs : Octets) : Option Element :=
  match readAll xs with
  | some [e] => if e.identifier = sequenceTag then some e else none
  | _ => none

def sequence (es : List Element) : Element :=
  ⟨sequenceTag, writeAll es⟩

def sequence? (e : Element) : Option (List Element) :=
  if e.identifier = sequenceTag then readAll e.contents else none

/-- The contents of a non-negative integer: its octets, after a zero octet if the high bit is set. -/
def naturalContents (n : Nat) : Octets :=
  let digits := Octets.minimal n
  if digits.headD 0 < 0x80 then digits else 0 :: digits

def natural (n : Nat) : Element :=
  ⟨integerTag, naturalContents n⟩

def natural? (e : Element) : Option Nat :=
  let n := Octets.toNat e.contents
  if e.identifier = integerTag ∧ naturalContents n = e.contents then some n else none

def octetString (xs : Octets) : Element :=
  ⟨octetStringTag, xs⟩

def octetString? (e : Element) : Option Octets :=
  if e.identifier = octetStringTag then some e.contents else none

/-- The contents of a string of whole octets of bits. -/
def bitContents (xs : Octets) : Octets :=
  0 :: xs

/-- The count of unused bits, at most seven, and the octets of a string of bits. -/
def bits? : Octets → Option (Nat × Octets)
  | [] => none
  | unused :: xs =>
    if unused.toNat ≤ 7 ∧ (unused = 0 ∨ xs ≠ []) then some (unused.toNat, xs) else none

/-- The octets of a string of bits without unused bits. -/
def wholeOctets? (contents : Octets) : Option Octets :=
  match bits? contents with
  | some (0, xs) => some xs
  | _ => none

def bitString (xs : Octets) : Element :=
  ⟨bitStringTag, bitContents xs⟩

def objectIdentifier (o : ObjectIdentifier) : Element :=
  ⟨objectIdentifierTag, o.octets⟩

def objectIdentifier? (e : Element) : Option ObjectIdentifier :=
  if e.identifier = objectIdentifierTag then ObjectIdentifier.ofOctets? e.contents else none

def null : Element :=
  ⟨nullTag, []⟩

/-- The number of a field that the surrounding structure assigns. -/
def fieldNumber? (e : Element) : Option Nat :=
  if e.identifier &&& 0xc0 = 0x80 then some (e.identifier &&& 0x1f).toNat else none

def field (number : UInt8) (e : Element) : Element :=
  ⟨0xa0 ||| number, e.write⟩

/-- The element that a numbered field is put around. -/
def fieldElement? (e : Element) : Option Element :=
  if e.identifier &&& 0xe0 = 0xa0 then
    match readAll e.contents with
    | some [inner] => some inner
    | _ => none
  else none

end Element

/-- The elements without those in front that are fields with a lower number. -/
def dropLowerFields (number : Nat) (es : List Element) : List Element :=
  es.dropWhile fun e => match e.fieldNumber? with
    | some k => k < number
    | none => false

/-- The field with a given number, if it comes next but for fields with lower numbers, and the elements
behind it. -/
def takeField (number : Nat) (es : List Element) : Option Element × List Element :=
  match dropLowerFields number es with
  | [] => (none, [])
  | e :: rest => if e.fieldNumber? = some number then (some e, rest) else (none, e :: rest)

end SealedImage.Asn1

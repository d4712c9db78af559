import SealedImage.Asn1.Element

/-!
# Key structures

The structures in which keys are exchanged: a private key with its algorithm (PKCS#8), a public key with
its algorithm (SPKI), a private key on an elliptic curve (SEC 1), and the numbers of an RSA key (PKCS#1).
Each has a function that writes it and one that reads it from the whole of an octet string.
-/

namespace SealedImage.Asn1

/-- An algorithm with an optional parameter of any type. -/
structure Algorithm where
  identifier : ObjectIdentifier
  parameter : Option Element
deriving DecidableEq

namespace Algorithm

def element (a : Algorithm) : Element :=
  .sequence (.objectIdentifier a.identifier :: a.parameter.toList)

def ofElement? (e : Element) : Option Algorithm := do
  match ← e.sequence? with
  | [oid] => some ⟨← oid.objectIdentifier?, none⟩
  | [oid, parameter] => some ⟨← oid.objectIdentifier?, some parameter⟩
  | _ => none

def curve? (a : Algorithm) : Option ObjectIdentifier :=
  a.parameter.bind Element.objectIdentifier?

/-- RSA, with an empty parameter. -/
def rsa : Algorithm := ⟨.rsaEncryption, some .null⟩

/-- Elliptic curve keys on P-256. -/
def p256 : Algorithm := ⟨.ecPublicKey, some (.objectIdentifier .p256)⟩

end Algorithm

/-- A public key with its algorithm; `unused` bits at the end of the key do not count. -/
structure PublicKeyInfo where
  algorithm : Algorithm
  unused : Nat
  key : Octets

namespace PublicKeyInfo

/-- The encoding of a public key that is whole octets. -/
def write (algorithm : Algorithm) (key : Octets) : Octets :=
  (Element.sequence [algorithm.element, .bitString key]).write

def read? (xs : Octets) : Option PublicKeyInfo := do
  match ← (← Element.document? xs).sequence? with
  | [algorithm, key] =>
    let algorithm ← Algorithm.ofElement? algorithm
    if key.identifier = bitStringTag then
      let (unused, octets) ← Element.bits? key.contents
      some ⟨algorithm, unused, octets⟩
    else none
  | _ => none

/-- The key, if it is whole octets. -/
def octets? (info : PublicKeyInfo) : Option Octets :=
  if info.unused = 0 then some info.key else none

end PublicKeyInfo

/-- A private key with its algorithm, and the public key if it is stored too. -/
structure PrivateKeyInfo where
  algorithm : Algorithm
  key : Octets
  publicKey : Option Octets

namespace PrivateKeyInfo

/-- The encoding of a private key without its public key. -/
def write (algorithm : Algorithm) (key : Octets) : Octets :=
  (Element.sequence [.natural 0, algorithm.element, .octetString key]).write

/-- The public key in a field of its own, and the fields behind it. -/
def readPublicKey? (fields : List Element) : Option (Option Octets × List Element) :=
  match takeField 1 fields with
  | (none, rest) => some (none, rest)
  | (some e, rest) =>
    if e.identifier = 0x81 then (Element.wholeOctets? e.contents).map fun key => (some key, rest)
    else none

/-- The private key that an octet string encodes. Version one has a public key, version zero has not;
further fields are not looked into. -/
def read? (xs : Octets) : Option PrivateKeyInfo := do
  match ← (← Element.document? xs).sequence? with
  | version :: algorithm :: key :: fields =>
    let version ← version.natural?
    let algorithm ← Algorithm.ofElement? algorithm
    let key ← key.octetString?
    let (publicKey, rest) ← readPublicKey? fields
    if version = (if publicKey.isSome then 1 else 0) ∧
        rest.all (fun e => e.fieldElement?.isSome) then
      some ⟨algorithm, key, publicKey⟩
    else none
  | _ => none

end PrivateKeyInfo

/-- A private key on an elliptic curve, with the curve and the public key if they are stored too. -/
structure EcPrivateKey where
  secret : Octets
  curve : Option ObjectIdentifier
  publicKey : Option Octets

namespace EcPrivateKey

/-- The encoding of a private key with its public key and without its curve. -/
def write (secret publicKey : Octets) : Octets :=
  (Element.sequence [.natural 1, .octetString secret, .field 1 (.bitString publicKey)]).write

/-- The curve in a field of its own, and the fields behind it. -/
def readCurve? (fields : List Element) : Option (Option ObjectIdentifier × List Element) :=
  match takeField 0 fields with
  | (none, rest) => some (none, rest)
  | (some e, rest) => do some (some (← (← e.fieldElement?).objectIdentifier?), rest)

/-- The public key in a field of its own, and the fields behind it. -/
def readPublicKey? (fields : List Element) : Option (Option Octets × List Element) :=
  match takeField 1 fields with
  | (none, rest) => some (none, rest)
  | (some e, rest) => do
    let inner ← e.fieldElement?
    if inner.identifier = bitStringTag then some (some (← Element.wholeOctets? inner.contents), rest)
    else none

/-- The private key that an octet string encodes. -/
def read? (xs : Octets) : Option EcPrivateKey := do
  match ← (← Element.document? xs).sequence? with
  | version :: secret :: fields =>
    let version ← version.natural?
    let secret ← secret.octetString?
    let (curve, fields) ← readCurve? fields
    let (publicKey, rest) ← readPublicKey? fields
    if version = 1 ∧ rest = [] then some ⟨secret, curve, publicKey⟩ else none
  | _ => none

end EcPrivateKey

def writeNumbers (ns : List Nat) : Octets :=
  (Element.sequence (ns.map Element.natural)).write

/-- The numbers of the sequence that an octet string encodes. -/
def readNumbers? (xs : Octets) : Option (List Nat) := do
  let es ← (← Element.document? xs).sequence?
  es.mapM Element.natural?

end SealedImage.Asn1

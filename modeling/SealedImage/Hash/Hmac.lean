import SealedImage.Hash.Sha256

/-!
# HMAC and key derivation

Keyed hashing with SHA-256 and the two derivations built on it: `expandKey` turns a secret and a salt
into one key (extract, then expand, HKDF), and `stretch` turns a password and a salt into one block by
many rounds of keyed hashing (PBKDF2). Both produce 32 octets, so one block of output is enough.
-/

namespace SealedImage.Hmac

/-- The key filled with zeros to 64 octets; a longer key is hashed first. -/
def keyBlock (key : Octets) : Octets :=
  let short := if key.length ≤ 64 then key else (Sha256.digest key).octets
  short ++ List.replicate (64 - short.length) 0

/-- HMAC with SHA-256. -/
def tag (key message : Octets) : Block 32 :=
  let block := keyBlock key
  let inner := Sha256.digest (block.map (· ^^^ 0x36) ++ message)
  Sha256.digest (block.map (· ^^^ 0x5c) ++ inner.octets)

/-- HKDF: the secret is concentrated under the salt, and the result keyed with the purpose. -/
def expandKey (secret salt info : Octets) : Block 32 :=
  let extracted := tag salt secret
  tag extracted.octets (info ++ [1])

def sum (xs ys : Octets) : Octets :=
  List.zipWith (· ^^^ ·) xs ys

theorem length_sum {n : Nat} {xs ys : Octets} (hx : xs.length = n) (hy : ys.length = n) :
    (sum xs ys).length = n := by
  simp [sum, hx, hy]

/-- `rounds` more rounds of stretching, from the last tag and the sum of the tags so far. -/
def stretchFrom (password : Octets) : (rounds : Nat) → (last total : Block 32) → Block 32
  | 0, _, total => total
  | rounds + 1, last, total =>
    let next := tag password last.octets
    stretchFrom password rounds next ⟨sum total.octets next.octets, length_sum total.2 next.2⟩

/-- PBKDF2, the first block of output: the bitwise sum of `rounds` tags, each the tag of the one
before, starting from the salt and the block number one. -/
def stretch (password salt : Octets) (rounds : Nat) : Block 32 :=
  let first := tag password (salt ++ [0, 0, 0, 1])
  stretchFrom password (rounds - 1) first first

end SealedImage.Hmac

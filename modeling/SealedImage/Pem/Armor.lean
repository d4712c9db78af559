import SealedImage.Pem.Base64

/-!
# Armored text

A strict document of RFC 7468: an optional preamble of whole lines, a line that begins the block and
carries its label, base64 text in lines of 64 characters, and a line with the same label that ends the
block. Lines end in LF, CR or CR LF. `Armor.read?` accepts such documents, `Armor.write` writes one with
lines that end in LF.
-/

namespace SealedImage.Pem

def dropStart? (start : List Char) (text : List Char) : Option (List Char) :=
  if start.isPrefixOf text then some (text.drop start.length) else none

def dropEnd? (tail : List Char) (text : List Char) : Option (List Char) :=
  (dropStart? tail.reverse text.reverse).map List.reverse

/-- The text behind a line end that it starts with. -/
def dropLineEnd? : List Char → Option (List Char)
  | '\r' :: '\n' :: rest => some rest
  | '\r' :: rest => some rest
  | '\n' :: rest => some rest
  | _ => none

/-- The text in front of the line end that it ends in. -/
def dropFinalLineEnd? (text : List Char) : Option (List Char) :=
  match text.reverse with
  | '\n' :: '\r' :: rest => some rest.reverse
  | '\n' :: rest => some rest.reverse
  | '\r' :: rest => some rest.reverse
  | _ => none

def dashes : List Char := "-----".toList

def beginMark : List Char := "-----BEGIN ".toList

def endMark : List Char := "-----END ".toList

/-- The text from the start of the block on, behind a preamble of lines that end in LF and hold no NUL. -/
def dropPreamble? : List Char → Option (List Char)
  | [] => none
  | c :: rest =>
    if beginMark.isPrefixOf (c :: rest) then some (c :: rest)
    else dropLines (c :: rest)
where
  /-- The text behind the first LF that the block follows. -/
  dropLines : List Char → Option (List Char)
    | [] => none
    | c :: rest =>
      if c = '\x00' then none
      else if c = '\n' ∧ beginMark.isPrefixOf rest then some rest
      else dropLines rest

/-- A printable ASCII character other than the space and the dash. -/
def isLabelChar (c : Char) : Bool :=
  '!' ≤ c && c ≤ '~' && c != '-'

/-- The longest label at the start of a text, and what follows. A label holds single blanks, but not in
front; `blank` tells whether a blank may come next. -/
def splitLabel : (blank : Bool) → List Char → List Char × List Char
  | _, [] => ([], [])
  | blank, c :: rest =>
    if isLabelChar c then
      let (label, after) := splitLabel true rest
      (c :: label, after)
    else if blank ∧ (c = ' ' ∨ c = '\t') then
      let (label, after) := splitLabel false rest
      (c :: label, after)
    else ([], c :: rest)

/-- The most characters of base64 text in a line. -/
def lineWidth : Nat := 64

/-- The lines of a text in a block, of which there are at most `count`: all but the last have 64
characters. The last line may lack its end. -/
def linesUpTo : (count : Nat) → List Char → Option (List (List Char))
  | 0, _ => none
  | count + 1, text =>
    if text.length ≤ lineWidth then some [(dropFinalLineEnd? text).getD text]
    else
      match dropLineEnd? (text.drop lineWidth) with
      | none => none
      | some [] => some [text.take lineWidth]
      | some rest => (linesUpTo count rest).map (text.take lineWidth :: ·)

def lines? (text : List Char) : Option (List (List Char)) :=
  linesUpTo (text.length + 1) text

/-- The octets that lines of base64 text write; only the last line may be padded. -/
def decodeLines? : List (List Char) → Option Octets
  | [] => some []
  | [last] => decode? last
  | line :: rest => do some ((← decodeGroups? line) ++ (← decodeLines? rest))

/-- A label and the octets that it is the label of. -/
structure Armor where
  label : List Char
  contents : Octets
deriving DecidableEq

namespace Armor

def read? (text : List Char) : Option Armor := do
  let block ← dropPreamble? text
  let (label, after) := splitLabel false (block.drop beginMark.length)
  let body ← dropLineEnd? (← dropStart? dashes after)
  let body ← dropEnd? dashes ((dropFinalLineEnd? body).getD body)
  let body ← dropFinalLineEnd? (← dropEnd? endMark (← dropEnd? label body))
  let lines ← lines? body
  some ⟨label, ← decodeLines? lines⟩

/-- The text cut into lines of 64 characters that end in LF. -/
def writeLines : (count : Nat) → List Char → List Char
  | 0, _ => []
  | count + 1, text => text.take lineWidth ++ '\n' :: writeLines count (text.drop lineWidth)

/-- The document that carries octets under a label. -/
def write (a : Armor) : List Char :=
  let text := encode a.contents
  beginMark ++ a.label ++ dashes ++ '\n' ::
    (writeLines ((text.length + lineWidth - 1) / lineWidth) text ++
      endMark ++ a.label ++ dashes ++ ['\n'])

end Armor

end SealedImage.Pem

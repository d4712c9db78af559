import SealedImage.Journal.Event

/-!
# Choosing events

A filter is a list of directives, separated by commas when written: a level for all events, or a level for
the events whose origin starts with a given text. Of the directives that apply to an event the one with the
longest text counts, and of two with the same text the later one.
-/

namespace SealedImage

/-- The least grave level that is shown of the events from some origins. -/
structure Directive where
  /-- What the origin starts with; any origin if there is none. -/
  origin : Option String
  /-- The greatest rank that is shown; zero shows nothing. -/
  rank : Nat
deriving DecidableEq

namespace Directive

def rank? (word : String) : Option Nat :=
  match word.toLower with
  | "off" | "0" => some 0
  | "error" | "1" => some 1
  | "warn" | "2" => some 2
  | "info" | "3" => some 3
  | "debug" | "4" => some 4
  | "trace" | "5" => some 5
  | _ => none

def isOrigin (text : String) : Bool :=
  !text.isEmpty && text.toList.all fun c => c.isAlphanum || c == '_' || c == ':' || c == '-'

/-- The directive that a text writes: a level, an origin, or an origin with a level. -/
def parse? (text : String) : Option Directive :=
  match text.splitOn "=" with
  | [word] =>
    match rank? word with
    | some rank => some ⟨none, rank⟩
    | none => if isOrigin word then some ⟨some word, 5⟩ else none
  | [origin, word] =>
    if isOrigin origin then
      if word.isEmpty then some ⟨some origin, 5⟩ else (rank? word).map fun rank => ⟨some origin, rank⟩
    else none
  | _ => none

def appliesTo (d : Directive) (e : Event) : Bool :=
  match d.origin with
  | none => true
  | some start => start.toList.isPrefixOf e.origin.toList

def weight (d : Directive) : Nat :=
  match d.origin with
  | none => 0
  | some start => start.length + 1

end Directive

abbrev Filter := List Directive

namespace Filter

def standard : Filter := [⟨some "encimg", 3⟩]

/-- What is shown of an empty list of directives. -/
def onlyErrors : Filter := [⟨none, 1⟩]

/-- The filter that a text writes; the standard one if the text is none. -/
def ofText (text : String) : Filter :=
  let parts := (text.splitOn ",").filter fun part => !part.isEmpty
  if parts.isEmpty then onlyErrors
  else (parts.mapM fun part => Directive.parse? part.trimAscii.toString).getD standard

def find? (f : Filter) (e : Event) : Option Directive :=
  (f.filter (·.appliesTo e)).foldl
    (fun best d =>
      match best with
      | none => some d
      | some b => if b.weight ≤ d.weight then some d else some b)
    none

def shows (f : Filter) (e : Event) : Bool :=
  match f.find? e with
  | none => false
  | some d => e.level.rank ≤ d.rank

def lines (f : Filter) (events : List Event) : List String :=
  (events.filter f.shows).map Event.line

end Filter

end SealedImage

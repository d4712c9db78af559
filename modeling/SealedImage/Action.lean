import SealedImage.Journal.Event
import SealedImage.Tape

/-!
# Actions

An action draws from the random tape, reports events, changes a store and ends in a result or a failure.
What it drew, reported and stored before a failure stays. There is no outcome at all if the tape ends before
the draws do. Actions that do not mention the store work on every store.
-/

namespace SealedImage

/-- The unread tape, the events so far, and the store. -/
structure Session (σ : Type) where
  tape : Octets
  journal : List Event
  store : σ

/-- A step from session to session that ends in a result or a failure. -/
abbrev Action (σ α : Type) := ExceptT Failure (StateT (Session σ) Option) α

namespace Action

variable {σ α : Type}

def outcome (a : Action σ α) (s : Session σ) : Option (Except Failure α × Session σ) :=
  a.run.run s

def report (e : Event) : Action σ Unit :=
  modify fun s => { s with journal := s.journal ++ [e] }

def draw (d : Draw α) : Action σ α :=
  ExceptT.mk fun s => (d s.tape).map fun (a, rest) => (.ok a, { s with tape := rest })

def ofExcept (r : Except Failure α) : Action σ α :=
  ExceptT.mk (pure r)

def ofIo (r : Except IoFault α) : Action σ α :=
  ofExcept (r.mapError .io)

def onStore (f : σ → Option IoFault × σ) : Action σ Unit :=
  ExceptT.mk fun s =>
    let (fault, store) := f s.store
    let r : Except Failure Unit := match fault with
      | none => .ok ()
      | some fault => .error (.io fault)
    some (r, { s with store := store })

/-- Runs an action on a store of its own, and gives what became of that store beside its outcome. -/
def onOwnStore {τ : Type} (store : τ) (a : Action τ α) : Action σ (Except Failure α × τ) :=
  ExceptT.mk fun s =>
    (a.outcome ⟨s.tape, s.journal, store⟩).map fun (r, t) =>
      (.ok (r, t.store), ⟨t.tape, t.journal, s.store⟩)

end Action

end SealedImage

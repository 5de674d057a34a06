/-
What a call on the objects leaves behind.

Most calls either do all they are asked for or fail and change nothing; they answer the new
objects or a cause.  A few stop half way and keep what they did, or take back what they did
after the failure was noticed, so the general outcome holds the objects after the call, the
result, and for a failure the objects as they were when it arose: its wording shows them.
-/
import MediaCommand.Objects.Basic

namespace MediaCommand

/-- What is worth telling about a call. -/
inductive Event
  /-- A chain has fewer bound inputs than its first filter takes. -/
  | underconnected (chain : ChainId) (needed : Int) (bound : Nat)
  /-- A stream was put on a track of an output. -/
  | mapped (source : Source) (output : OutputId) (track : Nat)
  /-- A mapping source was resolved to a text. -/
  | resolved (source : Value) (text : String)

/-- Whether the call itself puts the line of an event into words, whoever listens. -/
def Event.isEager : Event → Bool
  | underconnected _ _ _ => true
  | mapped _ _ _ => false
  | resolved _ _ => false

/-- A cause, and the objects as they were when it arose. -/
structure Failure where
  cause : Error
  seen : Objects

/-- The objects after a call, what there is to tell, and the result. -/
structure Outcome (α : Type) where
  objects : Objects
  events : List Event := []
  result : Except Failure α

namespace Outcome

/-- The outcome of a call that changes nothing when it fails. -/
def ofExcept {α : Type} (o : Objects) (r : Except Error (Objects × α)) : Outcome α :=
  match r with
  | .ok (o', a) => { objects := o', result := .ok a }
  | .error e => { objects := o, result := .error ⟨e, o⟩ }

/-- The outcome with another result. -/
def map {α β : Type} (f : α → β) (r : Outcome α) : Outcome β :=
  { objects := r.objects, events := r.events, result := r.result.map f }

end Outcome

end MediaCommand

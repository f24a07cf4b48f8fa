import TableStore.Error

/-!
# Answers of steps that change a state

A step answers or fails, and leaves a state in both cases: what a failed step leaves behind is
part of what it does.

* `Outcome σ α`        an answer and the state afterwards;
* `Outcome.andThen`    the next step runs from that state, unless the first one failed;
* `Outcome.forEach`    one step per element of a list, up to the first that fails.
-/

namespace TableStore

/-- an answer or a failure, and the state afterwards -/
structure Outcome (σ α : Type) where
  answer : Except Error α
  state : σ

namespace Outcome

variable {σ τ α β : Type}

def ok (a : α) (s : σ) : Outcome σ α := ⟨.ok a, s⟩

def fail (e : Error) (s : σ) : Outcome σ α := ⟨.error e, s⟩

/-- runs the next step from the state left, unless the first one failed -/
def andThen (o : Outcome σ α) (next : α → σ → Outcome σ β) : Outcome σ β :=
  match o.answer with
  | .ok a => next a o.state
  | .error e => ⟨.error e, o.state⟩

/-- the same answer, the state seen as part of a larger one -/
def within (o : Outcome σ α) (embed : σ → τ) : Outcome τ α := ⟨o.answer, embed o.state⟩

/-- the same state, the answer changed -/
def map (o : Outcome σ α) (f : α → β) : Outcome σ β := ⟨o.answer.map f, o.state⟩

/-- a change that leaves the old state when it is refused -/
def ofExcept (r : Except Error σ) (s : σ) : Outcome σ Unit :=
  match r with
  | .ok s' => ⟨.ok (), s'⟩
  | .error e => ⟨.error e, s⟩

/-- one step per element in turn, up to the first that fails -/
def forEach (step : α → σ → Outcome σ Unit) : List α → σ → Outcome σ Unit
  | [], s => ok () s
  | x :: xs, s => (step x s).andThen fun _ s => forEach step xs s

@[simp] theorem andThen_ok (a : α) (s : σ) (next : α → σ → Outcome σ β) :
    (ok a s).andThen next = next a s := rfl

end Outcome

end TableStore

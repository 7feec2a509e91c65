/-!
# Programs

A program is what is left to do: it is done, or it asks the world for something and goes on with the
answer. What the world answers is up to whoever runs it, so that one program can be run against any
behaviour of the services around it, stopped between any two questions, and interleaved with others.
-/

namespace Retrieval

/-- A program that asks questions of type `E`, each answered by a value of `R e`. -/
inductive Program (E : Type) (R : E → Type) (α : Type) : Type where
  | done (a : α)
  | ask (e : E) (next : R e → Program E R α)

namespace Program

variable {E : Type} {R : E → Type} {α β σ : Type}

def bind (p : Program E R α) (f : α → Program E R β) : Program E R β :=
  match p with
  | done a => f a
  | ask e next => ask e fun r => bind (next r) f

instance : Monad (Program E R) where
  pure := done
  bind := bind

def perform (e : E) : Program E R (R e) := ask e done

/-- Runs a program against a world that answers every question and may change with it. -/
def run (answer : (e : E) → σ → R e × σ) : Program E R α → σ → α × σ
  | done a, s => (a, s)
  | ask e next, s => let (r, s) := answer e s; run answer (next r) s

@[simp] theorem pure_eq (a : α) : (pure a : Program E R α) = done a := rfl

@[simp] theorem done_bind (a : α) (f : α → Program E R β) : (done a : Program E R α) >>= f = f a :=
  rfl

@[simp] theorem ask_bind (e : E) (next : R e → Program E R α) (f : α → Program E R β) :
    ask e next >>= f = ask e fun r => next r >>= f := rfl

/-- Running a program and then another one is running the two in a row. -/
theorem run_bind (answer : (e : E) → σ → R e × σ) (p : Program E R α) (f : α → Program E R β)
    (s : σ) : run answer (p >>= f) s = let r := run answer p s; run answer (f r.1) r.2 := by
  induction p generalizing s with
  | done a => rfl
  | ask e next ih => exact ih _ _

end Program
end Retrieval

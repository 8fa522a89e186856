import Surety.Error

/-!
# Programs that write in place

An operation changes its state one field after another, and whatever refuses it halfway leaves the
earlier writes behind.  A function from the old state to an answer and a new state cannot show that.
So an operation is written a second time as a program over its state, every write at its own place,
and proved to be a transaction: when it is refused, nothing has been written.

* `Update.exec` runs a program; each way of building one has its lemma, so that `simp` runs it too.
* `Update.commit` is what a transaction answers and leaves behind.
* `Update.execAll` runs programs one after another on one state, refused ones included.
-/

namespace Surety

/-- A program that changes a state in place; when it is refused, its earlier writes stay. -/
abbrev Update (σ α : Type) := ExceptT Error (StateM σ) α

namespace Update

variable {σ ι α β : Type}

/-! ## Running a program -/

/-- The answer of a program from a state, and the state that it leaves. -/
def exec (update : Update σ α) (state : σ) : Result α × σ := update.run.run state

/-- Go on with the value of a result, or stop with its refusal. -/
def need (result : Result α) : Update σ α := ExceptT.mk (pure result)

/-- Go on with a value that is there, or stop with a refusal. -/
def orThrow (value? : Option α) (e : Error) : Update σ α := need (value?.elim (.error e) .ok)

@[simp] theorem exec_bind (update : Update σ α) (next : α → Update σ β) (state : σ) :
    (update >>= next).exec state =
      match update.exec state with
      | (.ok a, after) => (next a).exec after
      | (.error e, after) => (.error e, after) := by
  simp only [exec, bind, ExceptT.bind, ExceptT.run, ExceptT.mk, StateT.run, StateT.bind]
  rcases update state with ⟨result, after⟩
  cases result <;> rfl

@[simp] theorem exec_pure (a : α) (state : σ) :
    (pure a : Update σ α).exec state = (.ok a, state) := rfl

@[simp] theorem exec_throw (e : Error) (state : σ) :
    (throw e : Update σ α).exec state = (.error e, state) := rfl

@[simp] theorem exec_get (state : σ) : (get : Update σ σ).exec state = (.ok state, state) := rfl

@[simp] theorem exec_modify (write : σ → σ) (state : σ) :
    (modify write : Update σ Unit).exec state = (.ok (), write state) := rfl

@[simp] theorem exec_need (result : Result α) (state : σ) :
    (need result : Update σ α).exec state = (result, state) := rfl

@[simp] theorem exec_orThrow (value? : Option α) (e : Error) (state : σ) :
    (orThrow value? e : Update σ α).exec state = (value?.elim (.error e) .ok, state) := rfl

/-! ## Transactions -/

/-- The answer of a transaction and the state that it leaves, the old one when it is refused. -/
def commit (state : σ) : Result (α × σ) → Result α × σ
  | .ok (a, next) => (.ok a, next)
  | .error e => (.error e, state)

/-- A refused transaction leaves the state as it was, whatever it makes of its result. -/
theorem commit_map_eq_error_iff {state after : σ} {result : Result β} {f : β → α × σ} {e : Error} :
    commit state (result.map f) = (.error e, after) ↔ result = .error e ∧ after = state := by
  cases result with
  | error other => simp [Except.map, commit, eq_comm]
  | ok value => simp [Except.map, commit]

/-! ## Runs -/

/-- The answers of programs that are run one after another on one state, and the state that they
leave. -/
def execAll (program : ι → Update σ α) (state : σ) : List ι → List (Result α) × σ
  | [] => ([], state)
  | i :: rest =>
      let (answer, next) := (program i).exec state
      let (answers, last) := execAll program next rest
      (answer :: answers, last)

/-- When a single program leaves what a function says, a run leaves what its fold says. -/
theorem execAll_snd {program : ι → Update σ α} {next : σ → ι → σ}
    (h : ∀ state i, ((program i).exec state).2 = next state i) (state : σ) (items : List ι) :
    (execAll program state items).2 = items.foldl next state := by
  induction items generalizing state with
  | nil => rfl
  | cons i rest ih =>
      rw [List.foldl_cons, ← h state i]
      exact ih _

end Update

end Surety

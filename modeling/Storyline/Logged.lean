import Storyline.Warning

/-!
# Results with warnings

A computation that may fail and that notices things on its way.  The warnings are kept in order and
also when the computation fails.

## Main definitions

* `Logged ε α`: the warnings so far and a result or a failure
* `Logged.warn`, `Logged.fail`, `Logged.lift`: one warning, a failure, a silent computation

## Main results

* `warnings_bind_ok`, `warnings_bind_error`: what the warnings of two steps are
-/

namespace Storyline

/-- The warnings of a computation, in order, and its result or failure. -/
structure Logged (ε α : Type) where
  warnings : List Warning
  result : Except ε α

namespace Logged

variable {ε δ α β : Type}

/-- A result without warnings. -/
def ok (a : α) : Logged ε α :=
  ⟨[], .ok a⟩

/-- A failure without warnings. -/
def fail (e : ε) : Logged ε α :=
  ⟨[], .error e⟩

/-- One warning. -/
def warn (w : Warning) : Logged ε Unit :=
  ⟨[w], .ok ()⟩

/-- A computation that warns of nothing. -/
def lift (x : Except ε α) : Logged ε α :=
  ⟨[], x⟩

/-- One computation after another; the second runs only on a result of the first. -/
def andThen (x : Logged ε α) (f : α → Logged ε β) : Logged ε β :=
  match x.result with
  | .ok a => ⟨x.warnings ++ (f a).warnings, (f a).result⟩
  | .error e => ⟨x.warnings, .error e⟩

instance : Monad (Logged ε) where
  pure := ok
  bind := andThen

instance : MonadLift (Except ε) (Logged ε) := ⟨lift⟩

/-- The same computation with its failure seen as another kind of failure. -/
def mapError (f : ε → δ) (x : Logged ε α) : Logged δ α :=
  ⟨x.warnings, x.result.mapError f⟩

@[simp] theorem warnings_pure (a : α) : (pure a : Logged ε α).warnings = [] := rfl

@[simp] theorem result_pure (a : α) : (pure a : Logged ε α).result = .ok a := rfl

@[simp] theorem warnings_lift (x : Except ε α) : (lift x).warnings = [] := rfl

@[simp] theorem result_lift (x : Except ε α) : (lift x).result = x := rfl

@[simp] theorem warnings_warn (w : Warning) : (warn w : Logged ε Unit).warnings = [w] := rfl

@[simp] theorem result_warn (w : Warning) : (warn w : Logged ε Unit).result = .ok () := rfl

/-- After a result come the warnings of the second step. -/
theorem warnings_bind_ok {x : Logged ε α} {a : α} (h : x.result = .ok a) (f : α → Logged ε β) :
    (x >>= f).warnings = x.warnings ++ (f a).warnings := by
  show (andThen x f).warnings = _
  simp [andThen, h]

/-- After a result comes the result of the second step. -/
theorem result_bind_ok {x : Logged ε α} {a : α} (h : x.result = .ok a) (f : α → Logged ε β) :
    (x >>= f).result = (f a).result := by
  show (andThen x f).result = _
  simp [andThen, h]

/-- After a failure there are no further warnings. -/
theorem warnings_bind_error {x : Logged ε α} {e : ε} (h : x.result = .error e)
    (f : α → Logged ε β) : (x >>= f).warnings = x.warnings := by
  show (andThen x f).warnings = _
  simp [andThen, h]

/-- A failure ends the computation. -/
theorem result_bind_error {x : Logged ε α} {e : ε} (h : x.result = .error e)
    (f : α → Logged ε β) : (x >>= f).result = .error e := by
  show (andThen x f).result = _
  simp [andThen, h]

end Logged

end Storyline

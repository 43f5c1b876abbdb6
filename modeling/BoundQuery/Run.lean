import BoundQuery.Event
import BoundQuery.Failure

/-!
# Operations that log and may fail

An operation on a state logs events on its way and ends with a result or a failure. A failure does
not undo anything: the state stays as far as the operation got, and so do the events. Whoever owns
the state may undo the rest, and has to say so.

## Main definitions

* `Outcome`: the state after an operation, its events and its result.
* `Run`: the operations, a lawful monad in which nothing follows a failure.
* `Run.get`, `Run.modify`, `Run.emit`, `Run.fail`, `Run.ofExcept`: the steps that operations are
  made of.
-/

namespace BoundQuery

/-- What an operation leads to. -/
@[ext] structure Outcome (σ α : Type) where
  state : σ
  events : List Event
  result : Except Failure α

/-- An operation on a state. -/
structure Run (σ α : Type) where
  run : σ → Outcome σ α

namespace Run

variable {σ α β γ : Type}

@[ext] theorem ext {x y : Run σ α} (h : x.run = y.run) : x = y := by
  cases x
  cases y
  congr

/-- Go on from an outcome with its result; nothing follows a failure. -/
def follow (o : Outcome σ α) (f : α → Run σ β) : Outcome σ β :=
  match o.result with
  | .ok a =>
    let next := (f a).run o.state
    ⟨next.state, o.events ++ next.events, next.result⟩
  | .error failure => ⟨o.state, o.events, .error failure⟩

instance : Monad (Run σ) where
  pure a := ⟨fun s => ⟨s, [], .ok a⟩⟩
  bind x f := ⟨fun s => follow (x.run s) f⟩

def get : Run σ σ := ⟨fun s => ⟨s, [], .ok s⟩⟩

def modify (f : σ → σ) : Run σ Unit := ⟨fun s => ⟨f s, [], .ok ()⟩⟩

def emit (event : Event) : Run σ Unit := ⟨fun s => ⟨s, [event], .ok ()⟩⟩

def fail (failure : Failure) : Run σ α := ⟨fun s => ⟨s, [], .error failure⟩⟩

/-- A result that is there already, or its failure. -/
def ofExcept (result : Except Failure α) : Run σ α := ⟨fun s => ⟨s, [], result⟩⟩

@[simp] theorem follow_ok (s : σ) (events : List Event) (a : α) (f : α → Run σ β) :
    follow ⟨s, events, .ok a⟩ f =
      ⟨((f a).run s).state, events ++ ((f a).run s).events, ((f a).run s).result⟩ := rfl

@[simp] theorem follow_error (s : σ) (events : List Event) (failure : Failure)
    (f : α → Run σ β) : follow ⟨s, events, .error failure⟩ f = ⟨s, events, .error failure⟩ := rfl

@[simp] theorem run_pure (a : α) (s : σ) : (pure a : Run σ α).run s = ⟨s, [], .ok a⟩ := rfl

@[simp] theorem run_bind (x : Run σ α) (f : α → Run σ β) (s : σ) :
    (x >>= f).run s = follow (x.run s) f := rfl

@[simp] theorem run_get (s : σ) : (get : Run σ σ).run s = ⟨s, [], .ok s⟩ := rfl

@[simp] theorem run_modify (f : σ → σ) (s : σ) : (modify f).run s = ⟨f s, [], .ok ()⟩ := rfl

@[simp] theorem run_emit (event : Event) (s : σ) : (emit event).run s = ⟨s, [event], .ok ()⟩ :=
  rfl

@[simp] theorem run_fail (failure : Failure) (s : σ) :
    (fail failure : Run σ α).run s = ⟨s, [], .error failure⟩ := rfl

@[simp] theorem run_ofExcept (result : Except Failure α) (s : σ) :
    (ofExcept result).run s = ⟨s, [], result⟩ := rfl

private theorem run_id_map (x : Run σ α) : id <$> x = x := by
  apply ext
  funext s
  change follow (x.run s) (fun a => pure (id a)) = x.run s
  rcases x.run s with ⟨t, events, failure | a⟩ <;> simp

private theorem run_pure_bind (a : α) (f : α → Run σ β) : pure a >>= f = f a := by
  apply ext
  funext s
  simp

private theorem run_bind_assoc (x : Run σ α) (f : α → Run σ β) (g : β → Run σ γ) :
    x >>= f >>= g = x >>= fun a => f a >>= g := by
  apply ext
  funext s
  rcases h : x.run s with ⟨t, events, failure | a⟩
  · simp [h]
  · rcases h' : (f a).run t with ⟨u, more, failure | b⟩ <;> simp [h, h']

instance : LawfulMonad (Run σ) :=
  LawfulMonad.mk' (Run σ) run_id_map run_pure_bind run_bind_assoc

end Run

end BoundQuery

import BoundQuery.Statement.Clone

/-!
# Actions

Everything that can be done with a store of statements. Each action concerns one statement, which
is its result. A store after some actions is what each of them left to the next, whether it failed
or not.

## Main definitions

* `Action`: the actions.
* `Store.perform`: the effect of an action.
* `Store.after`: a store after some actions.
-/

namespace BoundQuery

/-- What can be done with a store of statements. -/
inductive Action where
  | query (source : Value) (settings : Settings)
  | subselect (label : Value) (settings : Settings)
  | call (r : Ref) (c : Call)
  | clone (r : Ref)

namespace Store

/-- The effect of an action; its result is the statement that it made or changed. -/
def perform : Action → Run Store Ref
  | .query source settings => create .query (.ofSource source settings)
  | .subselect label settings => create .subselect (.blank label settings)
  | .call r c => do
    call r c
    return r
  | .clone r => clone r

def after (store : Store) (actions : List Action) : Store :=
  actions.foldl (fun store action => ((perform action).run store).state) store

@[simp] theorem after_nil (store : Store) : store.after [] = store := rfl

@[simp] theorem after_cons (store : Store) (action : Action) (rest : List Action) :
    store.after (action :: rest) = (((perform action).run store).state).after rest := rfl

end Store

end BoundQuery

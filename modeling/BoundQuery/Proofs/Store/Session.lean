import BoundQuery.Proofs.Store.Actions

/-!
# Failures leave no trace

A request is an action, or asks for what a statement shows. One that fails leaves the store as it
was: no statement has lost, gained or changed anything, however far the request got. So a session
goes on after a failure as if the request had not been made.

## Main definitions

* `Request`, `Answer`: what is asked, and what is answered.
* `Store.answer`, `Store.answers`: the effect of a request, and the answers of a session.
* `Store.succeeding`: the requests of a session that do not fail.

## Main statements

* `Store.state_answer_of_error`: a request that fails leaves the store as it was.
* `Store.failures_leave_no_trace`: a session without its failing requests gives the same answers.
-/

namespace BoundQuery

/-- What is asked of a store. -/
inductive Request where
  | act (a : Action)
  | text (r : Ref)
  | compile (r : Ref)
  | bound (r : Ref)

/-- The answer to a request that succeeds. -/
inductive Answer where
  | done (r : Ref)
  | text (t : String)
  | compiled (c : Compiled)
  | bound (values : List Value)

namespace Store

open Run

/-- Read from a store. -/
def read {α : Type} (f : Store → Except Failure α) : Run Store α :=
  ⟨fun store => ⟨store, [], f store⟩⟩

/-- The effect of a request. -/
def answer : Request → Run Store Answer
  | .act a => .done <$> perform a
  | .text r => read fun store => .text <$> store.text r
  | .compile r => read fun store => .compiled <$> store.compile r
  | .bound r => read fun store => (fun s => .bound s.bound) <$> store.find r

/-- The answers to requests that are made one after the other. -/
def answers (store : Store) : List Request → List (Except Failure Answer)
  | [] => []
  | q :: rest => ((answer q).run store).result :: answers ((answer q).run store).state rest

/-- The store after requests that are made one after the other. -/
def afterRequests (store : Store) : List Request → Store
  | [] => store
  | q :: rest => afterRequests ((answer q).run store).state rest

/-- Of requests that are made one after the other, those that do not fail. -/
def succeeding (store : Store) : List Request → List Request
  | [] => []
  | q :: rest =>
    let more := succeeding ((answer q).run store).state rest
    if ((answer q).run store).result.isOk then q :: more else more

/-! ## One request -/

theorem state_answer_act (a : Action) (store : Store) :
    ((answer (.act a)).run store).state = ((perform a).run store).state := by
  change (follow ((perform a).run store) fun r => pure (Answer.done r)).state = _
  unfold follow
  split <;> rfl

theorem result_answer_act (a : Action) (store : Store) :
    ((answer (.act a)).run store).result = .done <$> ((perform a).run store).result := by
  change (follow ((perform a).run store) fun r => pure (Answer.done r)).result = _
  unfold follow
  split
  · next h => rw [h]; rfl
  · next h => rw [h]; rfl

/-- An action that fails leaves the store as it was. -/
theorem state_perform_of_error {store : Store} (hbalanced : ∀ s ∈ store.statements, s.Balanced)
    {a : Action} {failure : Failure} (h : ((perform a).run store).result = .error failure) :
    ((perform a).run store).state = store := by
  cases a with
  | query source settings => cases h
  | subselect label settings => cases h
  | call r c =>
    rw [state_perform_call]
    cases hs : store.get? r with
    | none => exact state_call_of_none hs c
    | some s =>
      have hb := hbalanced s (List.mem_of_getElem? hs)
      rw [result_perform_call, result_call_of_get? hs, Call.result_perform] at h
      rw [state_call_of_get? hs, Call.state_perform _ _ hb]
      rcases hchange : c.change store.text s.settings with failure | change
      · exact set_of_get? hs
      · rw [hchange] at h
        cases h
  | clone r => exact state_clone_of_error h

/-- A request that fails leaves the store as it was. -/
theorem state_answer_of_error {store : Store} (hbalanced : ∀ s ∈ store.statements, s.Balanced)
    {q : Request} {failure : Failure} (h : ((answer q).run store).result = .error failure) :
    ((answer q).run store).state = store := by
  cases q with
  | act a =>
    rw [result_answer_act] at h
    rw [state_answer_act]
    rcases hresult : ((perform a).run store).result with failure | r
    · exact state_perform_of_error hbalanced hresult
    · rw [hresult] at h
      cases h
  | text r => rfl
  | compile r => rfl
  | bound r => rfl

theorem balanced_answer (q : Request) {store : Store} (h : ∀ s ∈ store.statements, s.Balanced) :
    ∀ s ∈ ((answer q).run store).state.statements, s.Balanced := by
  cases q with
  | act a =>
    rw [state_answer_act]
    exact balanced_perform a h
  | text r => exact h
  | compile r => exact h
  | bound r => exact h

/-! ## Sessions -/

/-- A session without the requests that fail leaves the same store, and gives the answers that the
others had. -/
theorem answers_succeeding {store : Store} (hbalanced : ∀ s ∈ store.statements, s.Balanced)
    (requests : List Request) :
    answers store (succeeding store requests) = (answers store requests).filter (·.isOk) ∧
      afterRequests store (succeeding store requests) = afterRequests store requests := by
  induction requests generalizing store with
  | nil => exact ⟨rfl, rfl⟩
  | cons q rest ih =>
    obtain ⟨hanswers, hafter⟩ := ih (balanced_answer q hbalanced)
    rcases hresult : ((answer q).run store).result with failure | a
    · have hstate := state_answer_of_error hbalanced hresult
      have hsucceeding : succeeding store (q :: rest) = succeeding store rest := by
        simp only [succeeding, hresult, hstate]
        rfl
      have hall : answers store (q :: rest) = .error failure :: answers store rest := by
        simp only [answers, hresult, hstate]
      rw [hstate] at hanswers hafter
      rw [hsucceeding, hall, afterRequests, hstate]
      exact ⟨hanswers, hafter⟩
    · have hsucceeding : succeeding store (q :: rest) =
          q :: succeeding ((answer q).run store).state rest := by
        simp only [succeeding, hresult]
        rfl
      rw [hsucceeding]
      refine ⟨?_, hafter⟩
      rw [answers, answers, hresult, hanswers]
      rfl

/-- After any actions, a request that fails leaves the store as it was. So whatever is requested
then, a session without the requests that fail leaves the same store and gives the answers that the
others had in it. -/
theorem failures_leave_no_trace (actions : List Action) :
    (∀ q failure, ((answer q).run (empty.after actions)).result = .error failure →
      ((answer q).run (empty.after actions)).state = empty.after actions) ∧
    ∀ requests,
      answers (empty.after actions) (succeeding (empty.after actions) requests) =
        (answers (empty.after actions) requests).filter (·.isOk) ∧
      afterRequests (empty.after actions) (succeeding (empty.after actions) requests) =
        afterRequests (empty.after actions) requests := by
  have hbalanced : ∀ s ∈ (empty.after actions).statements, s.Balanced :=
    fun s hs => balanced_after actions hs
  refine ⟨?_, answers_succeeding hbalanced⟩
  intro q failure h
  exact state_answer_of_error hbalanced h

/-- A query that refuses INs without values. -/
def refusing : List Action := [.query (.text "t") ⟨.reject, false⟩]

/-- A condition that is refused after a value was bound. -/
def refusedCondition : Request :=
  .act (.call ⟨.query, 0⟩ (.attach .rows .and
    (.predicate (.junction .and (.comparison .equal "a" (.int 1)) [.isIn "b" []]))))

theorem refusedCondition_leaves_no_trace :
    ((answer refusedCondition).run (empty.after refusing)).result = .error (.emptyIn "b") ∧
      ((answer refusedCondition).run (empty.after refusing)).state = empty.after refusing := by
  have h : ((answer refusedCondition).run (empty.after refusing)).result = .error (.emptyIn "b") :=
    rfl
  exact ⟨h, (failures_leave_no_trace refusing).1 _ _ h⟩

end Store

end BoundQuery

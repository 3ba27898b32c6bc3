import StructuredLog.Proofs.Record.RoundTrip

/-!
Buffers of a pool do not touch each other. Whatever is done to a pool, and in whatever order, the
buffer of a handle is what a buffer of its own would be to which only that was done which was meant
for the handle; handles count from one, and those that were not handed out are refused.
-/

namespace StructuredLog.Record

namespace Pool

inductive Step where
  | reset (indented : Bool)
  | append (key : String) (value : Scalar)
  | finish

namespace Step

def apply : Step → Buffer → Buffer
  | .reset indented, b => b.reset indented
  | .append key value, b => b.appendScalar key value
  | .finish, b => b.finish

def shown? : Step → Buffer → Option (List Char)
  | .finish, b => some b.text
  | _, _ => none

end Step

/-- What can be asked of a pool; any number may be given for a handle. -/
inductive Call where
  | acquire
  | step (handle : Nat) (step : Step)

inductive Answer where
  | handle (handle : Nat)
  | done (shown : Option (List Char))

def perform (pool : Pool) : Call → Except Error Answer × Pool
  | .acquire =>
      let (given, next) := pool.acquire
      (given.map .handle, next)
  | .step handle step =>
      let (changed, next) := pool.update handle step.apply
      (do
        changed
        .ok (.done (step.shown? (← next.buffer handle))), next)

def answer (pool : Pool) (c : Call) : Except Error Answer := (pool.perform c).1

def next (pool : Pool) (c : Call) : Pool := (pool.perform c).2

def after (pool : Pool) (calls : List Call) : Pool := calls.foldl next pool

def Call.acquires : Call → Bool
  | .acquire => true
  | .step _ _ => false

def handedOut (pool : Pool) : List Call → List (Except Error Answer)
  | [] => []
  | c :: rest => (if c.acquires then [pool.answer c] else []) ++ handedOut (pool.next c) rest

def requests (calls : List Call) : Nat := calls.countP Call.acquires

def stepsFor (handle : Nat) (calls : List Call) : List Step :=
  calls.filterMap fun c => match c with
    | .acquire => none
    | .step other step => if other = handle then some step else none

def lone (steps : List Step) : Buffer := steps.foldl (fun b step => step.apply b) (.fresh false)

theorem buffer_store {pool : Pool} {handle : Nat} {old : Buffer}
    (found : pool.buffer handle = .ok old) (new : Buffer) :
    (pool.store handle new).buffer handle = .ok new := by
  cases handle with
  | zero => cases found
  | succ i =>
    have inside : i < pool.slots.length := by
      by_contra outside
      rw [buffer, List.getElem?_eq_none (Nat.le_of_not_lt outside)] at found
      cases found
    simp only [buffer, store, Nat.add_sub_cancel, List.getElem?_set_self inside]

theorem answer_step (pool : Pool) (handle : Nat) (step : Step) :
    pool.answer (.step handle step) =
      (pool.buffer handle).map fun b => .done (step.shown? (step.apply b)) := by
  cases found : pool.buffer handle with
  | error error => simp only [answer, perform, update, found, bind, Except.bind, Except.map]
  | ok b =>
    simp only [answer, perform, update, found, buffer_store found, bind, Except.bind, Except.map]

theorem answer_acquire (pool : Pool) :
    pool.answer .acquire = if pool.size < pool.capacity then .ok (.handle (pool.size + 1))
      else .error (.poolExhausted pool.capacity) := by
  by_cases room : pool.size < pool.capacity
  · simp only [answer, perform, acquire, if_pos room]
    rfl
  · simp only [answer, perform, acquire, if_neg room]
    rfl

theorem next_acquire (pool : Pool) :
    pool.next .acquire = if pool.size < pool.capacity then
      { pool with slots := pool.slots ++ [Buffer.fresh false] } else pool := by
  by_cases room : pool.size < pool.capacity
  · simp only [next, perform, acquire, if_pos room]
  · simp only [next, perform, acquire, if_neg room]

theorem next_step (pool : Pool) (handle : Nat) (step : Step) (i : Nat) :
    (pool.next (.step handle step)).slots[i]? =
      if handle = i + 1 then pool.slots[i]?.map step.apply else pool.slots[i]? := by
  rw [next, perform, update]
  cases handle with
  | zero => rfl
  | succ j =>
    cases found : pool.slots[j]? with
    | none =>
      simp only [buffer, found, Nat.add_right_cancel_iff]
      split
      · next same =>
        subst same
        rw [found]
        rfl
      · rfl
    | some b =>
      simp only [buffer, found, store, Nat.add_sub_cancel, Nat.add_right_cancel_iff]
      by_cases same : j = i
      · subst same
        have inside : j < pool.slots.length := (List.getElem?_eq_some_iff.mp found).1
        rw [if_pos rfl, found, List.getElem?_set_self inside]
        rfl
      · rw [if_neg same, List.getElem?_set_ne same]

theorem next_step_shape (pool : Pool) (handle : Nat) (step : Step) :
    (pool.next (.step handle step)).size = pool.size ∧
      (pool.next (.step handle step)).capacity = pool.capacity := by
  rw [next, perform, update]
  cases pool.buffer handle with
  | error error => exact ⟨rfl, rfl⟩
  | ok b => exact ⟨List.length_set, rfl⟩

/-- Where a handle is not given out, or its buffer is not there, nothing is changed. -/
theorem next_of_fails {pool : Pool} {c : Call} {error : Error}
    (fails : pool.answer c = .error error) : pool.next c = pool := by
  cases c with
  | acquire =>
    rw [answer_acquire] at fails
    rw [next_acquire]
    split at fails
    · cases fails
    · next full => rw [if_neg full]
  | step handle step =>
    rw [answer_step] at fails
    rw [next, perform, update]
    cases found : pool.buffer handle with
    | error other => rfl
    | ok b =>
      rw [found] at fails
      cases fails

/-- What calls make of a pool: it has as many buffers as were asked for, if there is room for them,
and to each was done what was meant for it since its handle was handed out. -/
structure Isolated (capacity : Nat) (calls : List Call) (pool : Pool) : Prop where
  room : pool.capacity = capacity
  size : pool.size = min capacity (requests calls)
  slots : ∀ before after, calls = before ++ .acquire :: after → requests before < capacity →
    pool.slots[requests before]? = some (lone (stepsFor (requests before + 1) after))

theorem requests_append (first second : List Call) :
    requests (first ++ second) = requests first + requests second :=
  List.countP_append

theorem requests_acquire (calls : List Call) :
    requests (.acquire :: calls) = requests calls + 1 :=
  List.countP_cons_of_pos rfl

theorem stepsFor_acquire (handle : Nat) (calls : List Call) :
    stepsFor handle (calls ++ [.acquire]) = stepsFor handle calls := by
  rw [stepsFor, List.filterMap_append]
  exact List.append_nil _

theorem lone_step (handle other : Nat) (calls : List Call) (step : Step) :
    lone (stepsFor handle (calls ++ [.step other step])) =
      if other = handle then step.apply (lone (stepsFor handle calls))
      else lone (stepsFor handle calls) := by
  rw [stepsFor, List.filterMap_append]
  by_cases own : other = handle
  · simp only [List.filterMap_cons, List.filterMap_nil, if_pos own]
    exact List.foldl_concat _ _ _ _
  · simp only [List.filterMap_cons, List.filterMap_nil, if_neg own, List.append_nil]
    rfl

/-- A call that comes last is the one that hands out the handle, or it comes after that one. -/
theorem last_call {calls before after : List Call} {c : Call}
    (split : calls ++ [c] = before ++ .acquire :: after) :
    (calls = before ∧ c = .acquire ∧ after = []) ∨
      ∃ others, after = others ++ [c] ∧ calls = before ++ .acquire :: others := by
  rcases List.eq_nil_or_concat after with rfl | ⟨others, last, rfl⟩
  · obtain ⟨same, own⟩ := List.append_inj' split rfl
    exact .inl ⟨same, (List.cons.inj own).1, rfl⟩
  · rw [List.concat_eq_append, ← List.cons_append, ← List.append_assoc] at split
    obtain ⟨same, own⟩ := List.append_inj' split rfl
    obtain ⟨rfl, -⟩ := List.cons.inj own
    exact .inr ⟨others, List.concat_eq_append, same⟩

theorem Isolated.initial (capacity : Nat) : Isolated capacity [] (withCapacity capacity) where
  room := rfl
  size := (Nat.min_zero capacity).symm
  slots := by
    intro before after split
    cases List.append_eq_nil_iff.mp split.symm |>.2

theorem Isolated.acquire {capacity : Nat} {calls : List Call} {pool : Pool}
    (isolated : Isolated capacity calls pool) :
    Isolated capacity (calls ++ [.acquire]) (pool.next .acquire) := by
  have counted : requests (calls ++ [.acquire]) = requests calls + 1 := requests_append _ _
  have size : pool.slots.length = min capacity (requests calls) := isolated.size
  have most := isolated.room
  rw [next_acquire]
  by_cases room : pool.slots.length < pool.capacity
  · rw [Pool.size, if_pos room]
    refine ⟨isolated.room, ?_, ?_⟩
    · show (pool.slots ++ [Buffer.fresh false]).length = _
      rw [List.length_append, List.length_singleton, counted]
      omega
    · intro before after split fits
      show (pool.slots ++ [Buffer.fresh false])[requests before]? = _
      -- The handle is the one that was just handed out, and its buffer is the last, or an earlier
      -- one, and its buffer was there before.
      rcases last_call split with ⟨rfl, -, rfl⟩ | ⟨others, rfl, same⟩
      · have last : requests calls = pool.slots.length := by omega
        rw [last]
        exact List.getElem?_concat_length
      · have earlier : requests before < pool.slots.length := by
          have more : requests calls = requests before + (requests others + 1) := by
            rw [same, requests_append, requests_acquire]
          omega
        rw [List.getElem?_append_left earlier, stepsFor_acquire]
        exact isolated.slots before others same fits
  · rw [Pool.size, if_neg room]
    refine ⟨isolated.room, ?_, ?_⟩
    · rw [Pool.size, counted]
      omega
    · intro before after split fits
      rcases last_call split with ⟨rfl, -, rfl⟩ | ⟨others, rfl, same⟩
      · omega
      · rw [stepsFor_acquire]
        exact isolated.slots before others same fits

theorem Isolated.step {capacity : Nat} {calls : List Call} {pool : Pool}
    (isolated : Isolated capacity calls pool) (handle : Nat) (step : Step) :
    Isolated capacity (calls ++ [.step handle step]) (pool.next (.step handle step)) := by
  obtain ⟨size, room⟩ := next_step_shape pool handle step
  refine ⟨room.trans isolated.room, ?_, ?_⟩
  · rw [size, isolated.size, requests_append]
    rfl
  · intro before after split fits
    rcases last_call split with ⟨-, other, -⟩ | ⟨others, rfl, same⟩
    · cases other
    · rw [next_step, isolated.slots before others same fits, lone_step]
      split <;> rfl

theorem Isolated.next {capacity : Nat} {calls : List Call} {pool : Pool}
    (isolated : Isolated capacity calls pool) (c : Call) :
    Isolated capacity (calls ++ [c]) (pool.next c) := by
  cases c with
  | acquire => exact isolated.acquire
  | step handle step => exact isolated.step handle step

theorem after_append (pool : Pool) (calls : List Call) (c : Call) :
    pool.after (calls ++ [c]) = (pool.after calls).next c :=
  List.foldl_concat _ _ _ _

theorem after_isolated (capacity : Nat) (calls : List Call) :
    Isolated capacity calls ((withCapacity capacity).after calls) := by
  induction calls using List.reverseRecOn with
  | nil => exact Isolated.initial capacity
  | append_singleton calls c ih =>
    rw [after_append]
    exact ih.next c

theorem handedOut_append (pool : Pool) (calls : List Call) (c : Call) :
    pool.handedOut (calls ++ [c]) =
      pool.handedOut calls ++ if c.acquires then [(pool.after calls).answer c] else [] := by
  induction calls generalizing pool with
  | nil => exact List.append_nil _
  | cons first rest ih =>
    rw [List.cons_append, handedOut, ih, handedOut, List.append_assoc]
    rfl

theorem handedOut_eq (capacity : Nat) (calls : List Call) :
    (withCapacity capacity).handedOut calls = (List.range (requests calls)).map fun i =>
      if i < capacity then .ok (.handle (i + 1)) else .error (.poolExhausted capacity) := by
  induction calls using List.reverseRecOn with
  | nil => rfl
  | append_singleton calls c ih =>
    rw [handedOut_append, ih, requests_append]
    cases c with
    | step handle step => exact List.append_nil _
    | acquire =>
      have isolated := after_isolated capacity calls
      have one : requests [.acquire] = 1 := rfl
      rw [one, List.range_succ, List.map_append, List.map_singleton, answer_acquire, isolated.room,
        isolated.size]
      by_cases room : requests calls < capacity
      · rw [Nat.min_eq_right room.le, if_pos room]
        rfl
      · rw [Nat.min_eq_left (Nat.le_of_not_lt room), if_neg (Nat.lt_irrefl capacity), if_neg room]
        rfl

theorem buffer_unknown {pool : Pool} {handle : Nat} (unknown : handle = 0 ∨ pool.size < handle) :
    pool.buffer handle = .error (.invalidHandle handle) := by
  cases handle with
  | zero => rfl
  | succ i =>
    have outside : pool.slots.length ≤ i := by
      change i + 1 = 0 ∨ pool.slots.length < i + 1 at unknown
      omega
    rw [buffer, List.getElem?_eq_none outside]

/-- After any calls to a pool: handles were handed out from one on until there was no room for more;
a call that fails changes nothing; a handle that was not handed out is refused; and the buffer of
any other handle, and so what is shown of it, is that of a buffer of its own. -/
theorem after_calls_isolated (capacity : Nat) (calls : List Call) :
    let pool := (withCapacity capacity).after calls
    (withCapacity capacity).handedOut calls = (List.range (requests calls)).map (fun i =>
        if i < capacity then .ok (.handle (i + 1)) else .error (.poolExhausted capacity)) ∧
      pool.size = min capacity (requests calls) ∧
      (∀ c error, pool.answer c = .error error → pool.next c = pool) ∧
      (∀ handle, handle = 0 ∨ min capacity (requests calls) < handle → ∀ step,
        pool.answer (.step handle step) = .error (.invalidHandle handle)) ∧
      ∀ before after, calls = before ++ .acquire :: after → requests before < capacity →
        let handle := requests before + 1
        let own := lone (stepsFor handle after)
        pool.buffer handle = .ok own ∧ ∀ step,
          pool.answer (.step handle step) = .ok (.done (step.shown? (step.apply own))) := by
  intro pool
  have isolated : Isolated capacity calls pool := after_isolated capacity calls
  refine ⟨handedOut_eq capacity calls, isolated.size, fun _ _ => next_of_fails, ?_, ?_⟩
  · intro handle unknown step
    rw [← isolated.size] at unknown
    rw [answer_step, buffer_unknown unknown]
    rfl
  · intro before after split fits handle own
    have found : pool.buffer handle = .ok own := by
      simp only [handle, buffer, isolated.slots before after split fits]
      rfl
    refine ⟨found, fun step => ?_⟩
    rw [answer_step, found]
    rfl

/-- Two buffers that are filled in turns, with no room for a third. -/
theorem turns_isolated :
    let calls : List Call :=
      [.acquire, .step 1 (.append "a" (.string "x")), .acquire, .step 2 (.append "b" .null),
        .step 1 .finish, .acquire, .step 3 (.reset true), .step 1 (.reset true)]
    let pool := (withCapacity 2).after calls
    (withCapacity 2).handedOut calls =
        [.ok (.handle 1), .ok (.handle 2), .error (.poolExhausted 2)] ∧
      pool.answer (.step 3 .finish) = .error (.invalidHandle 3) ∧
      pool.answer (.step 1 .finish) = .ok (.done (some "\x7b\n\n\x7d".toList)) ∧
      pool.answer (.step 2 .finish) = .ok (.done (some "\x7b\"b\": null \x7d".toList)) := by
  intro calls pool
  obtain ⟨handles, -, -, unknown, own⟩ := after_calls_isolated 2 calls
  have first := own [] (calls.drop 1) rfl (by decide)
  have second := own (calls.take 2) (calls.drop 3) rfl (by decide)
  exact ⟨handles, unknown 3 (by decide) .finish, first.2 .finish, second.2 .finish⟩

end Pool

end StructuredLog.Record

import NetworkStack.Lib.Machine

/-!
# Thread pools

Tasks that are queued on a pool of threads. A task may give its thread back while it
waits for something outside the pool; it may also queue another task on the pool and
keep its thread until that task has run. Then the pool can come to a standstill, and it
can exactly if there are at least as many tasks of the second kind as threads.
-/

namespace Pool

inductive Action where
  | await
  | call (awaits : ℕ)
  deriving DecidableEq, Repr

inductive Status where
  | ready
  | running
  | waiting
  | blocked (callee : ℕ)
  | finished
  deriving DecidableEq, Repr

structure Task where
  program : List Action
  status : Status
  caller : Option ℕ
  deriving DecidableEq, Repr

/- `resume` is the event outside that a waiting task waits for. -/
inductive Label where
  | take (i : ℕ)
  | run (i : ℕ)
  | resume (i : ℕ)

def Action.isCall : Action → Bool
  | .await => false
  | .call _ => true

def blocking (program : List Action) : Bool := program.any Action.isCall

def Task.blockedOn (task : Task) : Option ℕ :=
  match task.status with
  | .blocked callee => some callee
  | _ => none

def Task.isBlocked (task : Task) : Bool := task.blockedOn.isSome

def Task.holdsThread (task : Task) : Bool := task.status = .running || task.isBlocked

def start (programs : List (List Action)) : List Task := programs.map fun p => ⟨p, .ready, none⟩

/-- The caller has its thread still and goes on. -/
def wake (s : List Task) : Option ℕ → List Task
  | none => s
  | some j =>
    match s[j]? with
    | some ⟨p, .blocked _, c⟩ => s.set j ⟨p, .running, c⟩
    | _ => s

/-- Any queued task may be the next that a free one of the `n` threads takes. -/
def step (n : ℕ) (s : List Task) : Label → Option (List Task)
  | .take i =>
    match s[i]? with
    | some ⟨p, .ready, c⟩ =>
      if s.countP Task.holdsThread < n then some (s.set i ⟨p, .running, c⟩) else none
    | _ => none
  | .run i =>
    match s[i]? with
    | some ⟨[], .running, c⟩ => some (wake (s.set i ⟨[], .finished, c⟩) c)
    | some ⟨.await :: p, .running, c⟩ => some (s.set i ⟨p, .waiting, c⟩)
    | some ⟨.call k :: p, .running, c⟩ =>
      some (s.set i ⟨p, .blocked s.length, c⟩ ++ [⟨List.replicate k .await, .ready, some i⟩])
    | _ => none
  | .resume i =>
    match s[i]? with
    | some ⟨p, .waiting, c⟩ => some (s.set i ⟨p, .ready, c⟩)
    | _ => none

/-- All `n` threads are blocked on tasks that are still queued. -/
def Deadlocked (n : ℕ) (s : List Task) : Prop :=
  s.countP Task.isBlocked = n ∧
    ∀ callee ∈ s.filterMap Task.blockedOn, (s[callee]?).map Task.status = some .ready

instance (n : ℕ) (s : List Task) : Decidable (Deadlocked n s) :=
  inferInstanceAs (Decidable (_ ∧ _))

/-! ### Counting -/

theorem countP_le_of_getElem? {α β : Type} {p : α → Bool} {q : β → Bool} {xs : List α}
    {ys : List β}
    (h : ∀ (i : ℕ) x, xs[i]? = some x → p x = true → ∃ y, ys[i]? = some y ∧ q y = true) :
    xs.countP p ≤ ys.countP q := by
  induction xs generalizing ys with
  | nil => exact Nat.zero_le _
  | cons x xs ih =>
    have htail : xs.countP p ≤ ys.tail.countP q := ih fun i z hi hz => by
      obtain ⟨y, hy, hq⟩ := h (i + 1) z hi hz
      exact ⟨y, by rwa [List.getElem?_tail], hq⟩
    rw [List.countP_cons]
    split
    · rename_i hx
      obtain ⟨y, hy, hq⟩ := h 0 x rfl hx
      cases ys with
      | nil => cases hy
      | cons y' ys =>
        cases hy
        rw [List.countP_cons, if_pos hq]
        exact Nat.add_le_add_right htail 1
    · exact Nat.le_trans htail (List.Sublist.countP_le (List.tail_sublist ys))

theorem countP_set {α : Type} {p : α → Bool} {xs : List α} {i : ℕ} {x : α}
    (h : xs[i]? = some x) (y : α) :
    (xs.set i y).countP p + (if p x then 1 else 0) = xs.countP p + (if p y then 1 else 0) := by
  induction xs generalizing i with
  | nil => cases h
  | cons z xs ih =>
    cases i with
    | zero =>
      cases h
      simp only [List.set_cons_zero, List.countP_cons]
      omega
    | succ i =>
      have htail := ih (i := i) h
      simp only [List.set_cons_succ, List.countP_cons]
      omega

variable {n : ℕ} {s t : List Task} {i : ℕ} {l : Label} {programs : List (List Action)}

/-! ### Only tasks with calls get blocked -/

/-- The task holds its thread for another one, or may come to do so. -/
def Task.mayBlock (task : Task) : Bool := task.isBlocked || blocking task.program

/- Whatever may block was started with a call in its program. -/
def Started (programs : List (List Action)) (s : List Task) : Prop :=
  ∀ (i : ℕ) task, s[i]? = some task → task.mayBlock = true →
    ∃ p, programs[i]? = some p ∧ blocking p = true

theorem start_started (programs : List (List Action)) : Started programs (start programs) := by
  intro i task hi hblock
  rw [start, List.getElem?_map] at hi
  obtain ⟨p, hp, rfl⟩ := Option.map_eq_some_iff.mp hi
  exact ⟨p, hp, hblock⟩

theorem getElem?_set_cases {α : Type} {xs : List α} {x y : α} {j : ℕ}
    (h : (xs.set i y)[j]? = some x) : j = i ∧ x = y ∨ xs[j]? = some x := by
  by_cases hji : j = i
  · subst hji
    have hlt := (List.getElem?_eq_some_iff.mp h).1
    rw [List.length_set] at hlt
    rw [List.getElem?_set_self hlt] at h
    exact .inl ⟨rfl, (Option.some.inj h).symm⟩
  · rw [List.getElem?_set_ne (Ne.symm hji)] at h
    exact .inr h

theorem Started.set (h : Started programs s) {task : Task} (hi : s[i]? = some task) {next : Task}
    (hnext : next.mayBlock = true → task.mayBlock = true) : Started programs (s.set i next) := by
  intro j x hj hx
  rcases getElem?_set_cases hj with ⟨rfl, rfl⟩ | hj
  · exact h j task hi (hnext hx)
  · exact h j x hj hx

theorem Started.wake (h : Started programs s) (caller : Option ℕ) :
    Started programs (wake s caller) := by
  cases caller with
  | none => exact h
  | some j =>
    simp only [Pool.wake]
    split
    · rename_i p callee c hj
      exact h.set hj fun _ => rfl
    · exact h

theorem blocking_replicate (k : ℕ) : blocking (List.replicate k .await) = false := by
  simp [blocking, Action.isCall]

theorem step_started (h : Started programs s) (ht : step n s l = some t) :
    Started programs t := by
  cases l with
  | take i =>
    simp only [step] at ht
    split at ht
    · rename_i p c hi
      split at ht
      · cases ht
        exact h.set hi id
      · cases ht
    · cases ht
  | run i =>
    simp only [step] at ht
    split at ht
    · rename_i c hi
      cases ht
      have hset : Started programs (s.set i ⟨[], .finished, c⟩) := h.set hi id
      exact hset.wake c
    · rename_i p c hi
      cases ht
      exact h.set hi id
    · rename_i k p c hi
      cases ht
      have hset : Started programs (s.set i ⟨p, .blocked s.length, c⟩) := h.set hi fun _ => rfl
      intro j x hj hx
      by_cases hlt : j < (s.set i ⟨p, .blocked s.length, c⟩).length
      · rw [List.getElem?_append_left hlt] at hj
        exact hset j x hj hx
      · -- the new task only waits
        have hnew : x = ⟨List.replicate k .await, .ready, some i⟩ :=
          List.mem_singleton.mp (List.mem_of_getElem? (by
            rwa [List.getElem?_append_right (Nat.not_lt.mp hlt)] at hj))
        rw [hnew] at hx
        rw [Task.mayBlock, blocking_replicate] at hx
        cases hx
    · cases ht
  | resume i =>
    simp only [step] at ht
    split at ht
    · rename_i p c hi
      cases ht
      exact h.set hi id
    · cases ht

theorem Started.countP_le (h : Started programs s) :
    s.countP Task.isBlocked ≤ programs.countP blocking :=
  countP_le_of_getElem? fun i task hi hblocked =>
    h i task hi (by rw [Task.mayBlock, hblocked, Bool.true_or])

/-! ### As many tasks with calls as threads -/

/- A free thread carries a task on to its first call; while the task waits outside the
pool, the thread is free again. -/
theorem advance {p : List Action} (hp : blocking p = true) (hi : s[i]? = some ⟨p, .ready, none⟩)
    (hfree : s.countP Task.holdsThread < n) :
    ∃ k q ls, Machine.run (step n) s ls = some (s.set i ⟨q, .blocked s.length, none⟩
      ++ [⟨List.replicate k .await, .ready, some i⟩]) := by
  have hlt := (List.getElem?_eq_some_iff.mp hi).1
  induction p generalizing s with
  | nil => cases hp
  | cons a p ih =>
    have htake : step n s (.take i) = some (s.set i ⟨a :: p, .running, none⟩) := by
      simp only [step, hi, if_pos hfree]
    have hrunning : (s.set i ⟨a :: p, .running, none⟩)[i]? = some ⟨a :: p, .running, none⟩ :=
      List.getElem?_set_self hlt
    cases a with
    | call k =>
      have hcall : step n (s.set i ⟨.call k :: p, .running, none⟩) (.run i)
          = some (s.set i ⟨p, .blocked s.length, none⟩
            ++ [⟨List.replicate k .await, .ready, some i⟩]) := by
        simp only [step, hrunning, List.set_set, List.length_set]
      refine ⟨k, p, [.take i, .run i], ?_⟩
      simp only [Machine.run, htake, hcall, Option.bind_some]
    | await =>
      have hawait : step n (s.set i ⟨.await :: p, .running, none⟩) (.run i)
          = some (s.set i ⟨p, .waiting, none⟩) := by
        simp only [step, hrunning, List.set_set]
      have hwaiting : (s.set i ⟨p, .waiting, none⟩)[i]? = some ⟨p, .waiting, none⟩ :=
        List.getElem?_set_self hlt
      have hresume : step n (s.set i ⟨p, .waiting, none⟩) (.resume i)
          = some (s.set i ⟨p, .ready, none⟩) := by
        simp only [step, hwaiting, List.set_set]
      have hready : (s.set i ⟨p, .ready, none⟩)[i]? = some ⟨p, .ready, none⟩ :=
        List.getElem?_set_self hlt
      have hcount : (s.set i ⟨p, .ready, none⟩).countP Task.holdsThread
          = s.countP Task.holdsThread :=
        countP_set (p := Task.holdsThread) hi ⟨p, .ready, none⟩
      obtain ⟨k, q, ls, hrun⟩ := ih hp hready (hcount ▸ hfree) (by rwa [List.length_set])
      refine ⟨k, q, .take i :: .run i :: .resume i :: ls, ?_⟩
      rw [List.set_set, List.length_set] at hrun
      simp only [Machine.run, htake, hawait, hresume, Option.bind_some, hrun]

/- `j` tasks are blocked on queued tasks that nobody has started with, no other task holds
a thread, and the tasks with calls that are not blocked have not run yet. -/
structure Filled (programs : List (List Action)) (j : ℕ) (s : List Task) : Prop where
  blocked : s.countP Task.isBlocked = j
  threads : s.countP Task.holdsThread = j
  size : programs.length ≤ s.length
  callees : ∀ callee ∈ s.filterMap Task.blockedOn,
    programs.length ≤ callee ∧ (s[callee]?).map Task.status = some .ready
  rest : ∀ (i : ℕ) p, programs[i]? = some p → blocking p = true →
    s[i]? = some ⟨p, .ready, none⟩ ∨ ∃ task, s[i]? = some task ∧ task.isBlocked = true

theorem start_filled (programs : List (List Action)) : Filled programs 0 (start programs) := by
  have hready : ∀ task ∈ start programs, task.status = .ready := by
    intro task htask
    obtain ⟨p, -, rfl⟩ := List.mem_map.mp htask
    rfl
  refine ⟨List.countP_eq_zero.mpr ?_, List.countP_eq_zero.mpr ?_, ?_, ?_,
    fun i p hi _ => .inl ?_⟩
  · intro task htask
    simp [Task.isBlocked, Task.blockedOn, hready task htask]
  · intro task htask
    simp [Task.holdsThread, Task.isBlocked, Task.blockedOn, hready task htask]
  · exact Nat.le_of_eq (List.length_map _).symm
  · intro callee hcallee
    obtain ⟨task, htask, hblocked⟩ := List.mem_filterMap.mp hcallee
    simp [Task.blockedOn, hready task htask] at hblocked
  · rw [start, List.getElem?_map, hi, Option.map_some]

theorem Filled.next {j : ℕ} (h : Filled programs j s) (hj : j < n)
    (hn : j < programs.countP blocking) :
    ∃ ls t, Machine.run (step n) s ls = some t ∧ Filled programs (j + 1) t := by
  -- some task with a call is not blocked yet
  have hsome : ∃ (i : ℕ) (p : List Action), programs[i]? = some p ∧ blocking p = true ∧
      s[i]? = some ⟨p, .ready, none⟩ := by
    by_contra hnone
    have hle : programs.countP blocking ≤ s.countP Task.isBlocked := by
      refine countP_le_of_getElem? fun i p hi hp => ?_
      rcases h.rest i p hi hp with hready | hblocked
      · exact absurd ⟨i, p, hi, hp, hready⟩ hnone
      · exact hblocked
    rw [h.blocked] at hle
    exact Nat.not_lt.mpr hle hn
  obtain ⟨i, p, hpi, hp, hi⟩ := hsome
  obtain ⟨k, q, ls, hrun⟩ := advance hp hi (h.threads ▸ hj)
  have hlt := (List.getElem?_eq_some_iff.mp hi).1
  have hroot := (List.getElem?_eq_some_iff.mp hpi).1
  have hlength : (s.set i ⟨q, .blocked s.length, none⟩).length = s.length := List.length_set
  refine ⟨ls, _, hrun, ?_, ?_, ?_, ?_, ?_⟩
  · have hcount := countP_set (p := Task.isBlocked) hi ⟨q, .blocked s.length, none⟩
    rw [List.countP_append, ← h.blocked]
    exact hcount
  · have hcount := countP_set (p := Task.holdsThread) hi ⟨q, .blocked s.length, none⟩
    rw [List.countP_append, ← h.threads]
    exact hcount
  · rw [List.length_append, hlength]
    exact Nat.le_trans h.size (Nat.le_add_right _ _)
  · intro callee hcallee
    obtain ⟨task, htask, hblocked⟩ := List.mem_filterMap.mp hcallee
    rcases List.mem_append.mp htask with htask | htask
    · rcases List.mem_or_eq_of_mem_set htask with htask | rfl
      · -- a task that was blocked before: its callee is not `i`, which was there from the start
        obtain ⟨hge, hready⟩ := h.callees callee (List.mem_filterMap.mpr ⟨task, htask, hblocked⟩)
        refine ⟨hge, ?_⟩
        obtain ⟨x, hx, -⟩ := Option.map_eq_some_iff.mp hready
        have hcallee := (List.getElem?_eq_some_iff.mp hx).1
        rw [List.getElem?_append_left (Nat.lt_of_lt_of_eq hcallee hlength.symm),
          List.getElem?_set_ne (by omega)]
        exact hready
      · obtain rfl : s.length = callee := Option.some.inj hblocked
        refine ⟨h.size, ?_⟩
        rw [List.getElem?_append_right (Nat.le_of_eq hlength), hlength, Nat.sub_self]
        rfl
    · rw [List.mem_singleton.mp htask] at hblocked
      cases hblocked
  · intro a x hx hblocking
    have hold : a < s.length := Nat.lt_of_lt_of_le (List.getElem?_eq_some_iff.mp hx).1 h.size
    rw [List.getElem?_append_left (Nat.lt_of_lt_of_eq hold hlength.symm)]
    by_cases hai : a = i
    · subst hai
      exact .inr ⟨_, List.getElem?_set_self hlt, rfl⟩
    · rw [List.getElem?_set_ne (Ne.symm hai)]
      exact h.rest a x hx hblocking

theorem filled_reachable {j : ℕ} (hj : j ≤ n) (hcount : j ≤ programs.countP blocking) :
    ∃ ls t, Machine.run (step n) (start programs) ls = some t ∧ Filled programs j t := by
  induction j with
  | zero => exact ⟨[], _, rfl, start_filled programs⟩
  | succ j ih =>
    obtain ⟨ls, s, hrun, hs⟩ := ih (Nat.le_of_succ_le hj) (Nat.le_of_succ_le hcount)
    obtain ⟨ms, t, hnext, ht⟩ := hs.next hj hcount
    refine ⟨ls ++ ms, t, ?_, ht⟩
    rw [Machine.run_append, hrun, Option.bind_some, hnext]

/-- The pool can come to a standstill if and only if as many of its tasks make calls as it
has threads. -/
theorem deadlock_reachable_iff (n : ℕ) (programs : List (List Action)) :
    (∃ ls t, Machine.run (step n) (start programs) ls = some t ∧ Deadlocked n t) ↔
      n ≤ programs.countP blocking := by
  constructor
  · rintro ⟨ls, t, hrun, hblocked, -⟩
    have hstep : ∀ s l t, Started programs s → True → step n s l = some t → Started programs t :=
      fun s l t hs _ hstep => step_started hs hstep
    have ht : Started programs t := Machine.run_invariant hstep (start_started programs)
      (Machine.guarded_of_forall fun _ _ _ => trivial) hrun
    exact hblocked ▸ ht.countP_le
  · intro hn
    obtain ⟨ls, t, hrun, ht⟩ := filled_reachable (Nat.le_refl n) hn
    exact ⟨ls, t, hrun, ht.blocked, fun callee hcallee => (ht.callees callee hcallee).2⟩

end Pool
